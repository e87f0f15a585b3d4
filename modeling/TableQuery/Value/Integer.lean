import TableQuery.Fault
import TableQuery.Number.Reading

/-! Values as integers. -/

namespace TableQuery

namespace Value

/-- How much of a value a message shows. -/
def excerpt (v : Value) : String := String.ofList (v.shown.toList.take 200)

def refuseInteger {α : Type} (v : Value) : Numeral.Unreadable → Outcome α
  | .malformed => .error (.badValue ("invalid literal for int() with base 10: " ++ v.excerpt))
  | .tooLong k => .error (.badValue
      ("Exceeds the limit (" ++ toString Numeral.mostDigits ++
        " digits) for integer string conversion: value has " ++ toString k ++
        " digits; use sys.set_int_max_str_digits() to increase the limit"))

/-- The integer part of a number, or the integer that a text or octets write. -/
def toInteger (v : Value) : Outcome Int :=
  let read (r : Except Numeral.Unreadable Int) : Outcome Int := match r with
    | .ok n => .ok n
    | .error e => v.refuseInteger e
  match v with
  | .int n => .ok n
  | .bool b => .ok (if b then 1 else 0)
  | .float x => match x.truncate?, x with
    | some n, _ => .ok n
    | .none, .nan _ => .error (.badValue "cannot convert float NaN to integer")
    | .none, _ => .error (.overflow "cannot convert float infinity to integer")
  | .bytes b => read (Numeral.ofOctets b)
  | v => match v.text? with
    | some s => read (Numeral.ofText s.toList)
    | .none => .error (.badCall
        ("int() argument must be a string, a bytes-like object or a real number, not '" ++
          v.typeName ++ "'"))

end Value
end TableQuery
