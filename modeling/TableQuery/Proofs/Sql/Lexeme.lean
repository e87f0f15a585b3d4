import TableQuery.Proofs.Lists
import TableQuery.Proofs.Sql.Marks
import TableQuery.Proofs.Sql.Plain
import TableQuery.Proofs.Sql.Regular

/-! The lexemes of a finished statement: quoted names, places for parameters, and characters. -/

namespace TableQuery

/-- A place has a name in the dialect that writes places by name. -/
inductive Lexeme
  | name (s : String)
  | hole (key : Option String)
  | char (c : Char)
deriving DecidableEq

namespace Lexeme
open Text Binding

/-- Characters that stand twice within a quoted name. -/
def isDoubled (d : Dialect) (c : Char) : Bool := c == '"' || (c == '%' && d.named)

/-- The rest of a quoted name with its doubled characters undone, and what stands behind it. -/
def body? (d : Dialect) : List Char → Option (List Char × List Char)
  | [] => none
  | [c] => if c = '"' then some ([], []) else none
  | c :: e :: cs =>
    if isDoubled d c then
      if e = c then (body? d cs).map fun r => (c :: r.1, r.2)
      else if c = '"' then some ([], e :: cs) else none
    else (body? d (e :: cs)).map fun r => (c :: r.1, r.2)

def name? (d : Dialect) : List Char → Option (Lexeme × List Char)
  | '"' :: cs => (body? d cs).map fun r => (name (String.ofList r.1), r.2)
  | _ => none

def hole? (d : Dialect) (cs : List Char) : Option (Lexeme × List Char) :=
  match d, cs with
  | .sqlite, '?' :: cs => some (hole none, cs)
  | .sqlite, _ => none
  | .postgresql, cs => match Placeholder.value? cs with
    | some (.value x, rest) => some (hole (some (String.ofList x)), rest)
    | _ => none

def read? (d : Dialect) (cs : List Char) : Option (Lexeme × List Char) :=
  (name? d cs).or (hole? d cs)

/-- The lexemes of a text. -/
def lex (d : Dialect) (s : String) : List Lexeme :=
  tokens (read? d) char s.toList.length s.toList

theorem isDoubled_iff {d : Dialect} {c : Char} :
    isDoubled d c = true ↔ Identifier.quoteChar d c = [c, c] := by
  unfold isDoubled Identifier.quoteChar
  split_ifs with h h'
  · simp [h]
  · simp [h'.1, h'.2]
  · simpa [h] using h'

theorem quoteChar_of_not_isDoubled {d : Dialect} {c : Char} (h : isDoubled d c = false) :
    Identifier.quoteChar d c = [c] := by
  unfold isDoubled at h
  simp only [Bool.or_eq_false_iff, beq_eq_false_iff_ne, Bool.and_eq_false_iff] at h
  unfold Identifier.quoteChar
  rw [if_neg h.1, if_neg]
  rintro ⟨hc, hd⟩
  rcases h.2 with h | h
  · exact h hc
  · rw [hd] at h
    cases h

/-- A quoted name is read whole, unless another quote follows. -/
theorem body?_quoted {d : Dialect} (cs : List Char) {rest : List Char}
    (h : ∀ c ∈ rest.head?, c ≠ '"') :
    body? d (cs.flatMap (Identifier.quoteChar d) ++ '"' :: rest) = some (cs, rest) := by
  induction cs with
  | nil =>
    cases rest with
    | nil => simp [body?]
    | cons e rest =>
      have hq : isDoubled d '"' = true := rfl
      have he : e ≠ '"' := h e rfl
      simp [body?, hq, he]
  | cons c cs ih =>
    rw [List.flatMap_cons, List.append_assoc]
    by_cases hc : isDoubled d c = true
    · rw [isDoubled_iff.mp hc, List.cons_append, List.cons_append, List.nil_append]
      simp only [body?, hc, if_true, ih, Option.map_some]
    · rw [Bool.not_eq_true] at hc
      rw [quoteChar_of_not_isDoubled hc, List.cons_append, List.nil_append]
      obtain ⟨e, es, he⟩ := List.exists_cons_of_ne_nil
        (show cs.flatMap (Identifier.quoteChar d) ++ '"' :: rest ≠ [] by simp)
      rw [he] at ih ⊢
      simp only [body?, hc, Bool.false_eq_true, if_false, ih, Option.map_some]

theorem name?_quote {d : Dialect} (n : String) {rest : List Char} (h : ∀ c ∈ rest.head?, c ≠ '"') :
    name? d ((Identifier.quote d n).toList ++ rest) = some (name n, rest) := by
  have hl : (Identifier.quote d n).toList ++ rest =
      '"' :: (n.toList.flatMap (Identifier.quoteChar d) ++ '"' :: rest) := by
    simp [Identifier.quote, Identifier.quoteChars]
  rw [hl, name?, body?_quoted n.toList h]
  simp

theorem read?_eq_none {d : Dialect} {c : Char} (h : c ≠ '"' ∧ c ≠ '%' ∧ c ≠ '?') (cs : List Char) :
    read? d (c :: cs) = none := by
  have hn : name? d (c :: cs) = none := by
    unfold name?
    split
    · rename_i he
      exact absurd (List.cons.inj he).1 h.1
    · rfl
  have hh : hole? d (c :: cs) = none := by
    cases d with
    | sqlite =>
      unfold hole?
      split
      · rename_i he
        exact absurd (List.cons.inj he).1 h.2.2
      · rfl
      · rename_i he
        cases he
    | postgresql =>
      have hv : Placeholder.value? (c :: cs) = none := by
        by_contra hv
        exact h.2.1 (List.cons_prefix_cons.mp (Placeholder.value?_opening hv)).1.symm
      simp only [hole?, hv]
  rw [read?, hn, hh]
  rfl

theorem quiet_read? {d : Dialect} {cs : List Char}
    (h : ∀ c ∈ cs, c ≠ '"' ∧ c ≠ '%' ∧ c ≠ '?') : Quiet (read? d) cs := by
  intro t ht hne rest
  obtain ⟨c, t, rfl⟩ := List.exists_cons_of_ne_nil hne
  exact read?_eq_none (h c (ht.subset (List.mem_cons_self ..))) (t ++ rest)

/-- How a parameter is called where it stands in the text. -/
def key (d : Dialect) (x : String) : Option String :=
  match d with
  | .postgresql => some x
  | .sqlite => none

def chars (s : String) : List Lexeme := s.toList.map char

/-- What is read at a piece. -/
def ofNamed (d : Dialect) : Named → List Lexeme
  | .text s => chars s
  | .quoted n => [name n]
  | .value _ x _ cast => hole (key d x) :: chars (castText d cast)
  | .members .. => []

/-- A piece that is read as what it is, wherever it stands. -/
inductive Single : Named → Prop
  | text {s : String} (fixed : isFixed s) : Single (.text s)
  | value {k x : String} {v : Value} {cast : Option Cast} (fit : Fit x) :
    Single (.value k x v cast)

theorem castText_ne (d : Dialect) (cast : Option Cast) :
    ∀ c ∈ (castText d cast).toList, c ≠ '"' ∧ c ≠ '%' ∧ c ≠ '?' := by
  cases d <;> rcases cast with _ | cast <;> try cases cast
  all_goals exact forall_of_all (by decide)

theorem fixed_ne_signs {s : String} (h : isFixed s) :
    ∀ c ∈ s.toList, c ≠ '"' ∧ c ≠ '%' ∧ c ≠ '?' := by
  intro c hc
  have hs := List.all_eq_true.mp (Bool.and_eq_true_iff.mp h).2 c hc
  simp only [signs, List.contains_cons, List.contains_nil, Bool.or_false, Bool.not_eq_true',
    Bool.or_eq_false_iff, beq_eq_false_iff_ne] at hs
  exact ⟨hs.2.2.1, hs.1, hs.2.2.2⟩

theorem scans_single {d : Dialect} {q : Named} (h : Single q) {rest : List Char}
    {ts : List Lexeme} (hr : Scans (read? d) char rest ts) :
    Scans (read? d) char ((written d q).toList ++ rest) (ofNamed d q ++ ts) := by
  cases h with
  | text fixed => exact hr.quiet (quiet_read? (fixed_ne_signs fixed))
  | @value k x v cast fit =>
    have hcast := hr.quiet (quiet_read? (castText_ne d cast))
    cases d with
    | sqlite =>
      have hl : (written .sqlite (.value k x v cast)).toList ++ rest =
          '?' :: ((castText .sqlite cast).toList ++ rest) := by
        simp [written, placeholder, castText]
      rw [hl]
      exact hcast.read rfl (by simp)
    | postgresql =>
      have hl : (written .postgresql (.value k x v cast)).toList ++ rest = '%' :: '(' :: x.toList ++
          ')' :: 's' :: ((castText .postgresql cast).toList ++ rest) := by
        simp [written, placeholder, Placeholder.valueText, String.toList_append]
      have hx : x.toList ≠ [] := fun h => fit.ne (String.toList_inj.mp h)
      have hv := Placeholder.value?_mark hx (fun h => fit.clear _ h (by decide))
        ((castText .postgresql cast).toList ++ rest)
      rw [hl]
      refine hcast.read ?_ (by simp only [List.length_append, List.length_cons]; omega)
      change hole? .postgresql _ = _
      rw [hole?, hv]
      simp [key]

/-! Blocks of pieces. -/

theorem mem_listed {parts : List (List Named)} {q : Named} (h : q ∈ listed parts) :
    q = .text ", " ∨ ∃ part ∈ parts, q ∈ part := by
  induction parts with
  | nil => cases h
  | cons part parts ih =>
    cases parts with
    | nil => exact .inr ⟨part, List.mem_cons_self .., by simpa [listed] using h⟩
    | cons next parts =>
      rw [listed, List.intercalate_cons_cons, List.append_assoc] at h
      rcases List.mem_append.mp h with h | h
      · exact .inr ⟨part, List.mem_cons_self .., h⟩
      · rcases List.mem_append.mp h with h | h
        · exact .inl (by simpa using h)
        · rcases ih h with h | ⟨p, hp, h⟩
          · exact .inl h
          · exact .inr ⟨p, List.mem_cons_of_mem part hp, h⟩

theorem single_of_mem_places {cast : Option Cast} {params : List (String × Value)}
    (h : ∀ p ∈ params, Fit p.1) {q : Named} (hq : q ∈ places cast params) : Single q := by
  rcases mem_listed hq with rfl | ⟨part, hpart, hq⟩
  · exact .text (by decide)
  · obtain ⟨p, hp, rfl⟩ := List.mem_map.mp hpart
    obtain rfl := List.mem_singleton.mp hq
    exact .value (h p hp)

theorem single_of_mem_rowBlock {ns : List String} (h : ∀ n ∈ ns, Fit n) {row : List Value}
    {q : Named} (hq : q ∈ rowBlock ns row) : Single q := by
  rw [rowBlock, List.cons_append, List.mem_cons, List.mem_append, List.mem_singleton] at hq
  rcases hq with rfl | hq | rfl
  · exact .text (by decide)
  · exact single_of_mem_places (fun p hp => h p.1 (List.of_mem_zip hp).1) hq
  · exact .text (by decide)

theorem single_of_mem_members {d : Dialect} {vs : List Value} {params : List (String × Value)}
    {b : List Named} (h : Members d vs params b) (hf : ∀ p ∈ params, Fit p.1) :
    ∀ q ∈ b, Single q := by
  intro q hq
  cases h with
  | flat single supplied => exact single_of_mem_places hf hq
  | rows many items supplied shown =>
    rcases List.mem_append.mp hq with hq | hq
    · cases d with
      | sqlite =>
        obtain rfl := List.mem_singleton.mp hq
        exact .text (by decide)
      | postgresql => cases hq
    · rcases mem_listed hq with rfl | ⟨block, hblock, hq⟩
      · exact .text (by decide)
      · obtain ⟨j, row, rfl⟩ := shown.exists_of_mem hblock
        refine single_of_mem_rowBlock (fun n hn => ?_) hq
        obtain ⟨p, hp, rfl⟩ := List.mem_map.mp (mem_of_mem_rowNames hn)
        exact hf p hp

theorem scans_singles {d : Dialect} {b : List Named} (h : ∀ q ∈ b, Single q) {rest : List Char}
    {ts : List Lexeme} (hr : Scans (read? d) char rest ts) :
    Scans (read? d) char ((writtenAll d b).toList ++ rest) (b.flatMap (ofNamed d) ++ ts) := by
  rw [writtenAll, String.toList_join, List.flatMap_map]
  induction b with
  | nil => exact hr
  | cons q b ih =>
    rw [List.flatMap_cons, List.flatMap_cons, List.append_assoc, List.append_assoc]
    exact scans_single (h q (List.mem_cons_self ..)) (ih fun p hp => h p (List.mem_cons_of_mem q hp))

/-- What is read at a block of pieces. -/
def ofBlocks (d : Dialect) (bs : List (List Named)) : List Lexeme := bs.flatten.flatMap (ofNamed d)

theorem writtenAll_cons (d : Dialect) (b : List Named) (bs : List (List Named)) :
    (writtenAll d (b :: bs).flatten).toList =
      (writtenAll d b).toList ++ (writtenAll d bs.flatten).toList := by
  simp only [writtenAll, List.flatten_cons, List.map_append, String.toList_join,
    List.flatMap_append]

/-- Behind a name stands a word, whose first character is no quote. -/
theorem head_ne_quote {d : Dialect} {l : Layout} {bs : List (List Named)} (hr : l.Regular)
    (hs : l.StartsPlain) (h : List.Forall₂ (Spread d) l bs) :
    ∀ c ∈ (writtenAll d bs.flatten).toList.head?, c ≠ '"' := by
  cases h with
  | nil => simp [writtenAll, String.join]
  | @cons p b l bs hp h =>
    cases hp with
    | text s =>
      have hfix : isFixed s := hr.pieces _ (List.mem_cons_self ..)
      have hne : s.toList ≠ [] := by
        intro he
        have : s = "" := String.toList_inj.mp he
        rw [this] at hfix
        exact absurd hfix (by decide)
      obtain ⟨e, es, he⟩ := List.exists_cons_of_ne_nil hne
      intro c hc
      rw [writtenAll_cons] at hc
      simp only [writtenAll, written, List.map_cons, List.map_nil, String.toList_join,
        List.flatMap_cons, List.flatMap_nil, List.append_nil, he, List.cons_append,
        List.head?_cons, Option.mem_def, Option.some.injEq] at hc
      subst hc
      exact (fixed_ne_signs hfix e (he ▸ List.mem_cons_self ..)).1
    | _ => exact absurd (hs _ rfl) (by simp [Piece.isText])

/-- A statement written piece by piece is read piece by piece. -/
theorem lex_written {d : Dialect} {l : Layout} {bs : List (List Named)} (hr : l.Regular)
    (h : List.Forall₂ (Spread d) l bs) : lex d (writtenAll d bs.flatten) = ofBlocks d bs := by
  refine Scans.tokens_eq ?_ le_rfl
  induction h with
  | nil => exact .nil
  | @cons p b l bs hp h ih =>
    have hrest := ih ⟨fun q hq => hr.pieces q (List.mem_cons_of_mem p hq), hr.apart.tail⟩
    have hreg := hr.pieces p (List.mem_cons_self ..)
    rw [writtenAll_cons, ofBlocks, List.flatten_cons, List.flatMap_append]
    cases hp with
    | text s => exact scans_singles (by simpa using .text hreg) hrest
    | quoted n =>
      -- What follows a quoted name does not begin with a quote, which would be read as a part of it.
      have hstart : Layout.StartsPlain _ := fun q hq => (List.isChain_cons.mp hr.apart).1 q hq rfl
      have hread := name?_quote (d := d) n (head_ne_quote
        ⟨fun q hq => hr.pieces q (List.mem_cons_of_mem _ hq), hr.apart.tail⟩ hstart h)
      have hl : (writtenAll d [.quoted n]).toList = (Identifier.quote d n).toList := by
        simp [writtenAll, written]
      rw [hl]
      refine hrest.read ?_ ?_
      · rw [read?, hread]
        rfl
      · rw [List.length_append, Identifier.quote, String.toList_ofList, Identifier.quoteChars]
        simp only [List.length_append, List.length_cons]
        omega
    | cell v fit => exact scans_singles (by simpa using .value (fit hreg)) hrest
    | operand v cast fit => exact scans_singles (by simpa using .value fit) hrest
    | members here fit => exact scans_singles (single_of_mem_members here fit) hrest

/-! The lexemes of a layout, the names of places aside. -/

/-- A place without its name. -/
def unnamed : Lexeme → Lexeme
  | hole _ => hole none
  | x => x

def commas (parts : List (List Lexeme)) : List Lexeme := (chars ", ").intercalate parts

/-- What stands in the place of a list of members. -/
def ofMembers (d : Dialect) (vs : List Value) : List Lexeme :=
  match rows? vs with
  | some rows => (rowsLead d).flatMap (ofNamed d) ++
      commas (rows.map fun v => chars "(" ++ commas (List.replicate (row v).length [hole none]) ++ chars ")")
  | none => commas (vs.map fun _ => hole none :: chars (castText d (vs.head?.bind Cast.ofValue?)))

def ofPiece (d : Dialect) : Piece → List Lexeme
  | .text s => chars s
  | .quoted n => [name n]
  | .slot (.cell ..) => [hole none]
  | .slot (.operand _ _ cast) => hole none :: chars (castText d cast)
  | .slot (.members _ vs) => ofMembers d vs

def ofLayout (d : Dialect) (l : Layout) : List Lexeme := l.flatMap (ofPiece d)

/-- The lexemes show the pieces of the layout, each in its place. -/
def Shows (d : Dialect) (l : Layout) (ls : List Lexeme) : Prop := ls.map unnamed = ofLayout d l

@[simp]
theorem unnamed_chars (s : String) : (chars s).map unnamed = chars s := by
  rw [chars, List.map_map]
  rfl

theorem map_unnamed_commas (parts : List (List Lexeme)) :
    (commas parts).map unnamed = commas (parts.map (List.map unnamed)) := by
  induction parts with
  | nil => rfl
  | cons part parts ih =>
    cases parts with
    | nil => simp [commas]
    | cons next parts =>
      simp only [commas, List.map_cons, List.intercalate_cons_cons, List.map_append,
        unnamed_chars] at ih ⊢
      rw [ih]

theorem flatMap_listed (d : Dialect) (parts : List (List Named)) :
    (listed parts).flatMap (ofNamed d) = commas (parts.map fun part => part.flatMap (ofNamed d)) := by
  induction parts with
  | nil => rfl
  | cons part parts ih =>
    cases parts with
    | nil => simp [listed, commas]
    | cons next parts =>
      rw [listed, List.intercalate_cons_cons, List.flatMap_append, List.flatMap_append, commas,
        List.map_cons, List.map_cons, List.intercalate_cons_cons]
      exact congrArg (_ ++ ·) ih

theorem unnamed_places (d : Dialect) (cast : Option Cast) (params : List (String × Value)) :
    ((places cast params).flatMap (ofNamed d)).map unnamed =
      commas (params.map fun _ => hole none :: chars (castText d cast)) := by
  rw [places, flatMap_listed, map_unnamed_commas, List.map_map, List.map_map]
  refine congrArg commas (List.map_congr_left fun p _ => ?_)
  simp [ofNamed, unnamed]

theorem unnamed_rowBlock (d : Dialect) {ns : List String} {row : List Value}
    (h : ns.length = row.length) : ((rowBlock ns row).flatMap (ofNamed d)).map unnamed =
      chars "(" ++ commas (List.replicate row.length [hole none]) ++ chars ")" := by
  have hlen : (ns.zip row).length = row.length := by rw [List.length_zip, h, min_self]
  have hplaces : ((places none (ns.zip row)).flatMap (ofNamed d)).map unnamed =
      commas (List.replicate row.length [hole none]) := by
    rw [unnamed_places, ← hlen, ← List.map_const']
    cases d <;> rfl
  simp only [rowBlock, List.flatMap_append, List.flatMap_cons, List.flatMap_nil, List.map_append,
    List.append_nil, ofNamed, unnamed_chars, hplaces, List.cons_append, List.append_assoc]

theorem unnamed_rows (d : Dialect) {names : List String} {i : Nat} {rows : List (List Value)}
    {blocks : List (List Named)} (h : RowBlocks names i rows blocks) :
    (blocks.map fun b => b.flatMap (ofNamed d)).map (List.map unnamed) =
      rows.map fun row =>
        chars "(" ++ commas (List.replicate row.length [hole none]) ++ chars ")" := by
  induction h with
  | nil => rfl
  | cons full rest ih => simp only [List.map_cons, unnamed_rowBlock d full, ih]

theorem unnamed_members {d : Dialect} {vs : List Value} {params : List (String × Value)}
    {b : List Named} (h : Members d vs params b) :
    (b.flatMap (ofNamed d)).map unnamed = ofMembers d vs := by
  cases h with
  | flat single supplied =>
    rw [unnamed_places, ofMembers, single]
    simp only [← supplied, List.map_map]
    rfl
  | @rows rows _ blocks many items supplied shown =>
    have hlead : ((rowsLead d).flatMap (ofNamed d)).map unnamed =
        (rowsLead d).flatMap (ofNamed d) := by
      cases d <;> rfl
    rw [List.flatMap_append, List.map_append, hlead, flatMap_listed, map_unnamed_commas,
      unnamed_rows d shown, ofMembers, many, eq_map_row items, List.map_map]
    rfl

theorem unnamed_spread {d : Dialect} {p : Piece} {b : List Named} (h : Spread d p b) :
    (b.flatMap (ofNamed d)).map unnamed = ofPiece d p := by
  cases h with
  | text s => simp [ofNamed, ofPiece]
  | quoted n => rfl
  | cell v fit => cases d <;> rfl
  | operand v cast fit => simp [ofNamed, ofPiece, unnamed]
  | members here fit => exact unnamed_members here

theorem unnamed_ofBlocks {d : Dialect} {l : Layout} {bs : List (List Named)}
    (h : List.Forall₂ (Spread d) l bs) : (ofBlocks d bs).map unnamed = ofLayout d l := by
  rw [ofBlocks, ofLayout]
  induction h with
  | nil => rfl
  | cons hp _ ih =>
    rw [List.flatten_cons, List.flatMap_append, List.map_append, unnamed_spread hp, ih,
      List.flatMap_cons]

/-- A statement written piece by piece shows its pieces. -/
theorem shows_plain {d : Dialect} {l : Layout} {r : Rendered} (hr : l.Regular)
    (h : l.plain d = .ok r) : Shows d l (lex d r.sql) := by
  obtain ⟨pieces, blocks, members, -, hl, hs, -, hsql, -⟩ := Layout.plain_eq_ok h
  have hb := hs.spread hl
  rw [Shows, hsql, lex_written hr hb, unnamed_ofBlocks hb]

end Lexeme
end TableQuery
