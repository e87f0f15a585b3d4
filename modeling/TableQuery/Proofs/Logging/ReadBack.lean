import TableQuery.Proofs.Logging.Reader

/-! What is written as JSON is read back, in printable characters. -/

namespace TableQuery
namespace Logging
namespace Decoded

/-- What follows does not go on with a number. -/
def Stops (rest : List Char) : Prop := ∀ c ∈ rest.head?, isNumeral c = false

theorem stops_cons {c : Char} (h : isNumeral c = false) (rest : List Char) : Stops (c :: rest) := by
  rintro _ ⟨⟩
  exact h

theorem skip_of_not_blank {c : Char} (h : isBlank c = false) (cs : List Char) : skip (c :: cs) = c :: cs := by
  rw [skip, List.dropWhile_cons, h, if_neg Bool.false_ne_true]

theorem skip_blank (cs : List Char) : skip (' ' :: cs) = skip cs := rfl

section Brackets

variable {α : Type} {item : Reader α} {close : Char} {css : List (List Char)} {as : List α}

/-- This is read as that, whatever follows. -/
def Reads (item : Reader α) (cs : List Char) (a : α) : Prop :=
  ∀ rest, Stops rest → item (cs ++ rest) = some (a, rest)

theorem items_blank (hblank : ∀ cs, item (' ' :: cs) = item cs) (most : Nat) (cs : List Char) :
    items item close most (' ' :: cs) = items item close most cs := by
  cases most with
  | zero => rfl
  | succ most => rw [items, items, hblank]

theorem length_le_joined {cs : List Char} (h : cs ∈ css) : cs.length ≤ (Json.joined css).length := by
  induction css using Json.joined.induct with
  | case1 => cases h
  | case2 a =>
    obtain rfl := List.mem_singleton.mp h
    rfl
  | case3 a as hne ih =>
    rw [Json.joined, List.length_append, List.length_cons, List.length_cons]
    · rcases List.mem_cons.mp h with rfl | h
      · omega
      · have := ih h
        omega
    · exact hne

theorem length_le_length_joined (css : List (List Char)) : css.length ≤ (Json.joined css).length + 1 := by
  induction css using Json.joined.induct with
  | case1 => exact Nat.zero_le _
  | case2 a => exact Nat.le_add_left _ _
  | case3 a as hne ih =>
    rw [Json.joined, List.length_append, List.length_cons, List.length_cons, List.length_cons]
    · omega
    · exact hne

/-- A bracket that ends a number, and is no comma. -/
structure Closes (close : Char) : Prop where
  stops : isNumeral close = false
  shows : isBlank close = false
  ends : close ≠ ','

theorem items_joined (hblank : ∀ cs, item (' ' :: cs) = item cs) (hclose : Closes close)
    (h : List.Forall₂ (Reads item) css as) (hne : css ≠ []) {most : Nat} (hmost : css.length ≤ most)
    (rest : List Char) : items item close most (Json.joined css ++ close :: rest) = some (as, rest) := by
  induction h generalizing most with
  | nil => contradiction
  | @cons cs a css as hcs hrest ih =>
    obtain ⟨most, rfl⟩ := Nat.exists_eq_add_one.mpr (show 0 < most by rw [List.length_cons] at hmost; omega)
    rw [List.length_cons, Nat.add_le_add_iff_right] at hmost
    rw [items]
    cases hrest with
    | nil =>
      rw [Json.joined, hcs _ (stops_cons hclose.stops rest)]
      simp [skip_of_not_blank hclose.shows]
    | @cons cs' a' css as hcs' hrest =>
      have hsplit : Json.joined (cs :: cs' :: css) ++ close :: rest =
          cs ++ ',' :: ' ' :: (Json.joined (cs' :: css) ++ close :: rest) := by
        simp [Json.joined]
      rw [hsplit, hcs _ (stops_cons (by decide) _)]
      simp [skip_of_not_blank (show isBlank ',' = false by decide), hclose.ends.symm, items_blank hblank,
        ih (List.cons_ne_nil _ _) hmost]

/-- The first character is no blank and no bracket that closes. -/
def Starts (cs : List Char) : Prop := ∃ c rest, cs = c :: rest ∧ isBlank c = false ∧ c ≠ ']' ∧ c ≠ '\x7d'

theorem bracketed_joined (hblank : ∀ cs, item (' ' :: cs) = item cs) (hclose : close = ']' ∨ close = '\x7d')
    (h : List.Forall₂ (Reads item) css as) (hstarts : ∀ cs ∈ css, Starts cs) (rest : List Char) :
    bracketed item close (Json.joined css ++ close :: rest) = some (as, rest) := by
  have hcloses : Closes close := by rcases hclose with rfl | rfl <;> constructor <;> decide
  unfold bracketed
  cases css with
  | nil =>
    cases h
    rw [Json.joined, List.nil_append, skip_of_not_blank hcloses.shows]
    exact if_pos rfl
  | cons cs css =>
    have hmost : (cs :: css).length ≤ (Json.joined (cs :: css) ++ close :: rest).length := by
      have := length_le_length_joined (cs :: css)
      simp only [List.length_append, List.length_cons] at this ⊢
      omega
    have hitems := items_joined hblank hcloses h (List.cons_ne_nil _ _) hmost rest
    obtain ⟨c, tail, rfl, hblank', hne⟩ := hstarts cs List.mem_cons_self
    obtain ⟨more, hmore⟩ : ∃ more, Json.joined ((c :: tail) :: css) = c :: more := by
      cases css <;> exact ⟨_, rfl⟩
    have hc : c ≠ close := by rcases hclose with rfl | rfl <;> tauto
    rw [hmore] at hitems ⊢
    rw [List.cons_append, skip_of_not_blank hblank']
    exact (if_neg hc).trans hitems

end Brackets

/-- A text of printable characters that is read as one value. -/
structure ReadsAs (cs : List Char) (d : Decoded) : Prop where
  printable : Printable cs
  starts : Starts cs
  reads : ∀ depth, cs.length ≤ depth → Reads (value depth) cs d

theorem value_blank (depth : Nat) (cs : List Char) : value depth (' ' :: cs) = value depth cs := by
  cases depth with
  | zero => rfl
  | succ depth => rw [value, value, skip_blank]

theorem member_blank (v : Reader Decoded) (cs : List Char) : member v (' ' :: cs) = member v cs := by
  rw [member, member, skip_blank]

/-- A value is read by what reads what begins with its first character. -/
theorem reads_value {cs : List Char} {d : Decoded} (hstarts : Starts cs)
    (h : ∀ depth rest, Stops rest → cs.length ≤ depth + 1 → value (depth + 1) (cs ++ rest) = some (d, rest)) :
    ∀ depth, cs.length ≤ depth → Reads (value depth) cs d := by
  intro depth hdepth rest hrest
  obtain ⟨c, tail, rfl, -⟩ := hstarts
  obtain ⟨depth, rfl⟩ := Nat.exists_eq_add_one.mpr (show 0 < depth by rw [List.length_cons] at hdepth; omega)
  exact h depth rest hrest hdepth

theorem readsAs_null : ReadsAs "null".toList .null :=
  ⟨by decide, ⟨_, _, rfl, by decide⟩, reads_value ⟨_, _, rfl, by decide⟩ fun _ _ _ _ => rfl⟩

theorem readsAs_bool (b : Bool) : ReadsAs (if b then "true" else "false").toList (.bool b) := by
  cases b
  · exact ⟨by decide, ⟨_, _, rfl, by decide⟩, reads_value ⟨_, _, rfl, by decide⟩ fun _ _ _ _ => rfl⟩
  · exact ⟨by decide, ⟨_, _, rfl, by decide⟩, reads_value ⟨_, _, rfl, by decide⟩ fun _ _ _ _ => rfl⟩

theorem string_quote (ps : List Point) (rest : List Char) :
    string ((ps.map Point.code).flatMap Json.escapePoint ++ '"' :: rest) = some (spelled ps, rest) := by
  have hp : ∀ n ∈ ps.map Point.code, n < 0x110000 := List.forall_mem_map.mpr fun p _ => p.code_lt
  rw [string, Json.units_quotePoints hp, Option.map_some, whole_halves hp]
  rfl

theorem readsAs_str (ps : List Point) : ReadsAs (Json.quote ps) (.str (spelled ps)) := by
  refine ⟨Json.printable_quotePoints _, ⟨'"', _, rfl, by decide⟩, reads_value ⟨'"', _, rfl, by decide⟩ ?_⟩
  intro depth rest _ _
  have hsplit : Json.quote ps ++ rest =
      '"' :: ((ps.map Point.code).flatMap Json.escapePoint ++ '"' :: rest) := by
    simp [Json.quote, Json.quotePoints]
  rw [hsplit, value, skip_of_not_blank (by decide)]
  change (string _).map _ = _
  rw [string_quote]
  rfl

section Numbers

variable {cs : List Char} {d : Decoded}

theorem numeral_shows {c : Char} (h : isNumeral c = true) : isBlank c = false ∧
    c ∉ ['"', '[', ']', '\x7b', '\x7d', 'n', 't', 'f'] := by
  constructor
  · by_contra hb
    simp only [isBlank, Bool.not_eq_false, Bool.or_eq_true, beq_iff_eq] at hb
    rcases hb with ((rfl | rfl) | rfl) | rfl <;> revert h <;> decide
  · simp only [List.mem_cons, List.not_mem_nil, or_false]
    rintro (rfl | rfl | rfl | rfl | rfl | rfl | rfl | rfl) <;> revert h <;> decide

theorem printable_of_numeral {c : Char} (h : isNumeral c = true) : 0x20 ≤ c.toNat ∧ c.toNat < 0x7F := by
  simp only [isNumeral, Numeral.isDigit, Bool.or_eq_true, Bool.and_eq_true, beq_iff_eq, decide_eq_true_eq] at h
  rcases h with ((((h | rfl) | rfl) | rfl) | rfl) | rfl
  · exact ⟨le_trans (by decide) h.1, lt_of_le_of_lt h.2 (by decide)⟩
  all_goals decide

/-- Characters of numbers that are read as one. -/
theorem readsAs_number (hcs : ∀ c ∈ cs, isNumeral c = true) (hd : number? cs = some d) : ReadsAs cs d := by
  cases cs with
  | nil => cases hd
  | cons c tail =>
    obtain ⟨hblank, hc⟩ := numeral_shows (hcs c List.mem_cons_self)
    simp only [List.mem_cons, List.not_mem_nil, or_false, not_or] at hc
    obtain ⟨hquote, hopen, hclose, hbrace, hbrace', hn, ht, hf⟩ := hc
    have hstarts : Starts (c :: tail) := ⟨c, tail, rfl, hblank, hclose, hbrace'⟩
    refine ⟨fun c hc => printable_of_numeral (hcs c hc), hstarts,
      reads_value hstarts fun depth rest hrest _ => ?_⟩
    have hspan := Lists.span_append hcs rest hrest
    rw [List.cons_append] at hspan ⊢
    have hscalar : scalar (c :: (tail ++ rest)) = some (d, rest) := by
      unfold scalar
      split <;> rename_i h
      · exact absurd (List.cons.inj h).1 hn
      · exact absurd (List.cons.inj h).1 ht
      · exact absurd (List.cons.inj h).1 hf
      · rw [hspan.1, hspan.2, hd]
        rfl
    rw [value, skip_of_not_blank hblank]
    split <;> rename_i h
    · exact absurd (List.cons.inj h).1 hquote
    · exact absurd (List.cons.inj h).1 hopen
    · exact absurd (List.cons.inj h).1 hbrace
    · exact hscalar

theorem number?_sign {body : List Char} (h : ∀ c ∈ body.head?, Numeral.isDigit c = true) (negative : Bool) :
    number? ((if negative then ['-'] else []) ++ body) = unsigned? negative body := by
  cases negative with
  | true => rfl
  | false =>
    change number? body = _
    unfold number?
    split
    · exact absurd (h _ rfl) (by decide)
    · rfl

theorem toList_toString (n : Int) :
    (toString n).toList = (if n < 0 then ['-'] else []) ++ Nat.toDigits 10 n.natAbs := by
  have hnat : ∀ k : Nat, k.repr.toList = Nat.toDigits 10 k := fun k =>
    (congrArg String.toList Nat.repr_eq_ofList_toDigits).trans String.toList_ofList
  cases n with
  | ofNat n => exact hnat n
  | negSucc n =>
    rw [if_pos (Int.negSucc_lt_zero n)]
    exact String.toList_append.trans (congrArg (['-'] ++ ·) (hnat (n + 1)))

theorem numeral_sign {p : Prop} [Decidable p] : ∀ c ∈ if p then ['-'] else [], isNumeral c = true := by
  split <;> exact List.all_eq_true.mp rfl

theorem numeral_digits (h : ∀ c ∈ cs, Numeral.isDigit c = true) : ∀ c ∈ cs, isNumeral c = true := fun c hc => by
  rw [isNumeral, h c hc]
  rfl

theorem numeral_toString (n : Int) : ∀ c ∈ (toString n).toList, isNumeral c = true := by
  rw [toList_toString]
  exact List.forall_mem_append.mpr ⟨numeral_sign, numeral_digits fun _ => Numeral.isDigit_of_mem_toDigits⟩

theorem not_padded (hne : cs ≠ []) (hlead : cs = ['0'] ∨ cs.head? ≠ some '0') :
    (cs.isEmpty || cs.head? == some '0' && cs != ['0']) = false := by
  rw [List.isEmpty_eq_false_iff.mpr hne, Bool.false_or, Bool.and_eq_false_iff]
  rcases hlead with rfl | hlead
  · exact .inr rfl
  · exact .inl (beq_eq_false_iff_ne.mpr hlead)

theorem readsAs_int (n : Int) : ReadsAs (toString n).toList (.int n) := by
  have hdigit : ∀ c ∈ Nat.toDigits 10 n.natAbs, Numeral.isDigit c = true := fun _ =>
    Numeral.isDigit_of_mem_toDigits
  have hspan := Lists.span_append hdigit [] nofun
  rw [List.append_nil] at hspan
  have hlead : Nat.toDigits 10 n.natAbs = ['0'] ∨ (Nat.toDigits 10 n.natAbs).head? ≠ some '0' := by
    rcases Nat.eq_zero_or_pos n.natAbs with h0 | hpos
    · exact .inl (h0 ▸ rfl)
    · exact .inr (Numeral.head?_toDigits hpos)
  have hread : unsigned? (decide (n < 0)) (Nat.toDigits 10 n.natAbs) = some (.int n) := by
    unfold unsigned?
    rw [hspan.1, hspan.2]
    dsimp only
    rw [not_padded Nat.toDigits_ne_nil hlead, if_neg Bool.false_ne_true, Numeral.value_toDigits]
    refine congrArg (some <| Decoded.int ·) ?_
    split <;> rename_i h <;> simp only [decide_eq_true_eq] at h <;> omega
  have hnumber := number?_sign (fun c hc => hdigit c (List.mem_of_mem_head? hc)) (decide (n < 0))
  simp only [decide_eq_true_eq, ← toList_toString] at hnumber
  exact readsAs_number (numeral_toString n) (hnumber.trans hread)

theorem numeral_spelling {s : Binary64.Spelling} (hs : s.Sound) : ∀ c ∈ s.chars, isNumeral c = true := by
  have hdigits := numeral_digits hs.isDigit
  have hfraction : ∀ c ∈ s.fraction, isNumeral c = true := by
    intro c hc
    unfold Binary64.Spelling.fraction at hc
    split at hc
    · cases hc
    · rcases List.mem_cons.mp hc with rfl | hc
      · rfl
      · exact hdigits c (List.mem_append_right _ hc)
  have hscale : ∀ c ∈ s.scale, isNumeral c = true := by
    intro c hc
    unfold Binary64.Spelling.scale at hc
    split at hc
    · cases hc
    · rename_i down ds hpower
      rcases List.mem_cons.mp hc with rfl | hc
      · rfl
      · rcases List.mem_cons.mp hc with rfl | hc
        · split <;> rfl
        · exact numeral_digits (hs.power _ hpower).2 c hc
  intro c hc
  rcases List.mem_append.mp hc with hc | hc
  · exact hdigits c (List.mem_append_left _ hc)
  · exact (List.mem_append.mp hc).elim (hfraction c) (hscale c)

/-- Behind the part in front there is something, and a point only with digits. -/
theorem exists_behind {s : Binary64.Spelling} (hs : s.Sound) : ∃ c more, s.fraction ++ s.scale = c :: more ∧
    (c == '.' && (more.takeWhile Numeral.isDigit).isEmpty) = false := by
  obtain ⟨whole, places, power⟩ := s
  cases places with
  | nil =>
    cases power with
    | none => cases hs.more <;> contradiction
    | some p => exact ⟨_, _, rfl, rfl⟩
  | cons d places =>
    have hd := hs.isDigit d (List.mem_append_right _ List.mem_cons_self)
    refine ⟨'.', d :: (places ++ _), rfl, ?_⟩
    rw [List.takeWhile_cons, hd]
    rfl

theorem readsAs_float {m : Nat} {e : Int} (hc : Binary64.Canonical m e) (negative : Bool) :
    ReadsAs (Json.floatText (.finite negative m e)).toList (.float (.finite negative m e)) := by
  obtain ⟨s, hs, htext, hvalue⟩ := Binary64.exists_spelling hc negative
  have hwhole := Lists.span_append (fun c hc => hs.isDigit c (List.mem_append_left _ hc)) _ s.fraction_stops
  have hread : unsigned? negative s.chars = some (.float (.finite negative m e)) := by
    unfold unsigned?
    rw [hs.decimal?_chars, hvalue, Binary64.Spelling.chars, hwhole.1, hwhole.2]
    dsimp only
    obtain ⟨c, more, hmore, hpoint⟩ := exists_behind hs
    rw [not_padded hs.whole hs.leading, if_neg Bool.false_ne_true, hmore]
    dsimp only
    rw [hpoint]
    rfl
  have hhead : ∀ c ∈ s.chars.head?, Numeral.isDigit c = true := by
    intro c hc
    rw [Binary64.Spelling.chars, List.head?_append_of_ne_nil _ hs.whole] at hc
    exact hs.isDigit c (List.mem_append_left _ (List.mem_of_mem_head? hc))
  change ReadsAs (Binary64.text (.finite negative m e)).toList _
  rw [htext]
  exact readsAs_number (List.forall_mem_append.mpr ⟨numeral_sign, numeral_spelling hs⟩)
    ((number?_sign hhead negative).trans hread)

end Numbers

section Nested

variable {css : List (List Char)} {ds : List Decoded}

theorem printable_joined (h : ∀ cs ∈ css, Printable cs) : Printable (Json.joined css) := by
  induction css using Json.joined.induct with
  | case1 => exact nofun
  | case2 a => exact h a List.mem_cons_self
  | case3 a as hne ih =>
    obtain ⟨ha, has⟩ := List.forall_mem_cons.mp h
    rw [Json.joined]
    · exact ha.append (.cons (by decide) (.cons (by decide) (ih has)))
    · exact hne

theorem itemChars_eq (xs : List Json) : Json.itemChars xs = xs.map Json.chars := by
  induction xs with
  | nil => rfl
  | cons x xs ih => rw [Json.itemChars, ih, List.map_cons]

theorem memberChars_eq (ms : List (List Point × Json)) :
    Json.memberChars ms = ms.map fun m => Json.quote m.1 ++ ':' :: ' ' :: m.2.chars := by
  induction ms with
  | nil => rfl
  | cons m ms ih => rw [Json.memberChars, ih, List.map_cons]

theorem readsAs_arr {xs : List Json} (h : List.Forall₂ (fun x d => ReadsAs x.chars d) xs ds) :
    ReadsAs (Json.arr xs).chars (.arr ds) := by
  have hall : ∀ cs ∈ xs.map Json.chars, Printable cs ∧ Starts cs := by
    intro cs hcs
    obtain ⟨x, hx, rfl⟩ := List.mem_map.mp hcs
    obtain ⟨d, -, hd⟩ := Lists.exists_of_mem_left h hx
    exact ⟨hd.printable, hd.starts⟩
  rw [Json.chars, itemChars_eq]
  refine ⟨?_, ⟨'[', _, rfl, by decide⟩, reads_value ⟨'[', _, rfl, by decide⟩ ?_⟩
  · exact (Printable.cons (by decide) (printable_joined fun cs hcs => (hall cs hcs).1)).append (by decide)
  · intro depth rest _ hdepth
    simp only [List.cons_append, List.length_cons, List.length_append] at hdepth
    have hreads : List.Forall₂ (Reads (value depth)) (xs.map Json.chars) ds := by
      have hmap : List.Forall₂ (fun cs x => cs = x.chars) (xs.map Json.chars) xs :=
        List.forall₂_map_left_iff.mpr (List.forall₂_same.mpr fun _ _ => rfl)
      refine Lists.forall₂_trans hmap h ?_
      rintro cs hcs x _ d rfl hd
      have hlen := length_le_joined hcs
      exact hd.reads depth (by omega)
    have hsplit : '[' :: Json.joined (xs.map Json.chars) ++ [']'] ++ rest =
        '[' :: (Json.joined (xs.map Json.chars) ++ ']' :: rest) := by simp
    rw [hsplit, value, skip_of_not_blank (by decide)]
    change (bracketed (value depth) ']' _).map _ = _
    rw [bracketed_joined (value_blank depth) (.inl rfl) hreads fun cs hcs => (hall cs hcs).2]
    rfl

/-- A member of an object as it is written. -/
theorem reads_member {ps : List Point} {cs : List Char} {d : Decoded} (h : ReadsAs cs d) {depth : Nat}
    (hdepth : cs.length ≤ depth) :
    Reads (member (value depth)) (Json.quote ps ++ ':' :: ' ' :: cs) (spelled ps, d) := by
  intro rest hrest
  have hsplit : Json.quote ps ++ ':' :: ' ' :: cs ++ rest =
      '"' :: ((ps.map Point.code).flatMap Json.escapePoint ++ '"' :: (':' :: ' ' :: (cs ++ rest))) := by
    simp [Json.quote, Json.quotePoints]
  rw [hsplit, member, skip_of_not_blank (by decide)]
  change (string _).bind _ = _
  rw [string_quote]
  change (value depth (' ' :: (cs ++ rest))).map _ = _
  rw [value_blank, h.reads depth hdepth rest hrest]
  rfl

/-- A member and what it is read as. -/
def MemberReadsAs (m : List Point × Json) (n : List Nat × Decoded) : Prop :=
  n.1 = spelled m.1 ∧ ReadsAs m.2.chars n.2

theorem readsAs_obj {ms : List (List Point × Json)} {ns : List (List Nat × Decoded)}
    (h : List.Forall₂ MemberReadsAs ms ns) : ReadsAs (Json.obj ms).chars (.obj ns) := by
  let text (m : List Point × Json) : List Char := Json.quote m.1 ++ ':' :: ' ' :: m.2.chars
  have hall : ∀ cs ∈ ms.map text, Printable cs ∧ Starts cs := by
    intro cs hcs
    obtain ⟨m, hm, rfl⟩ := List.mem_map.mp hcs
    obtain ⟨n, -, -, hn⟩ := Lists.exists_of_mem_left h hm
    exact ⟨(Json.printable_quotePoints _).append (.cons (by decide) (.cons (by decide) hn.printable)),
      '"', _, rfl, by decide⟩
  rw [Json.chars, memberChars_eq]
  refine ⟨?_, ⟨'\x7b', _, rfl, by decide⟩, reads_value ⟨'\x7b', _, rfl, by decide⟩ ?_⟩
  · exact (Printable.cons (by decide) (printable_joined fun cs hcs => (hall cs hcs).1)).append (by decide)
  · intro depth rest _ hdepth
    simp only [List.cons_append, List.length_cons, List.length_append] at hdepth
    have hreads : List.Forall₂ (Reads (member (value depth))) (ms.map text) ns := by
      have hmap : List.Forall₂ (fun cs m => cs = text m) (ms.map text) ms :=
        List.forall₂_map_left_iff.mpr (List.forall₂_same.mpr fun _ _ => rfl)
      refine Lists.forall₂_trans hmap h ?_
      rintro cs hcs m _ ⟨key, d⟩ heq ⟨hkey, hd⟩
      obtain rfl : key = spelled m.1 := hkey
      have hlen := length_le_joined hcs
      subst heq
      refine reads_member hd ?_
      simp only [text, List.length_append, List.length_cons] at hlen
      omega
    have hsplit : '\x7b' :: Json.joined (ms.map text) ++ ['\x7d'] ++ rest =
        '\x7b' :: (Json.joined (ms.map text) ++ '\x7d' :: rest) := by simp
    rw [hsplit, value, skip_of_not_blank (by decide)]
    change (bracketed (member (value depth)) '\x7d' _).map _ = _
    rw [bracketed_joined (member_blank (value depth)) (.inr rfl) hreads fun cs hcs => (hall cs hcs).2]
    rfl

/-- The text of a value is read as the value. -/
theorem read_text {j : Json} {d : Decoded} (h : ReadsAs j.chars d) : read j.text = some d := by
  have hvalue := h.reads (j.text.length + 1) (by simp [Json.text]) [] nofun
  rw [List.append_nil] at hvalue
  rw [read, Json.text, String.toList_ofList]
  rw [Json.text] at hvalue
  rw [hvalue]
  rfl

end Nested

end Decoded
end Logging
end TableQuery
