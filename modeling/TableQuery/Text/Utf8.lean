/-! Reading UTF-8 octets. -/

namespace TableQuery.Text

private def tail? (b : UInt8) : Option Nat :=
  if 0x80 ≤ b.toNat ∧ b.toNat ≤ 0xBF then some (b.toNat - 0x80) else none

/-- No value, for octets that are not well-formed UTF-8. -/
def decodeUtf8 : List UInt8 → Option (List Char)
  | [] => some []
  | a :: rest =>
    if a.toNat < 0x80 then
      (Char.ofNat a.toNat :: ·) <$> decodeUtf8 rest
    else match rest with
    | [] => none
    | b :: rest =>
      if 0xC2 ≤ a.toNat ∧ a.toNat < 0xE0 then do
        let y ← tail? b
        (Char.ofNat ((a.toNat - 0xC0) * 64 + y) :: ·) <$> decodeUtf8 rest
      else match rest with
      | [] => none
      | c :: rest =>
        if 0xE0 ≤ a.toNat ∧ a.toNat < 0xF0 then do
          let y ← tail? b
          let z ← tail? c
          let n := (a.toNat - 0xE0) * 4096 + y * 64 + z
          if n < 0x800 ∨ (0xD800 ≤ n ∧ n ≤ 0xDFFF) then none
          else (Char.ofNat n :: ·) <$> decodeUtf8 rest
        else match rest with
        | [] => none
        | d :: rest =>
          if 0xF0 ≤ a.toNat ∧ a.toNat < 0xF5 then do
            let y ← tail? b
            let z ← tail? c
            let w ← tail? d
            let n := (a.toNat - 0xF0) * 262144 + y * 4096 + z * 64 + w
            if n < 0x10000 ∨ 0x10FFFF < n then none
            else (Char.ofNat n :: ·) <$> decodeUtf8 rest
          else none

def ofUtf8? (octets : List UInt8) : Option String := String.ofList <$> decodeUtf8 octets

end TableQuery.Text
