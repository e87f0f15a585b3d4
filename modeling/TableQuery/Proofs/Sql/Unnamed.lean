import TableQuery.Proofs.Sql.Reading

/-! Queries without the names of their places. -/

namespace TableQuery
namespace Lexeme

/-- Some characters or names, and no place. -/
def IsFixed (ls : List Lexeme) : Prop := ∀ x ∈ ls, ∀ k, x ≠ .hole k

theorem IsFixed.chars (s : String) : IsFixed (chars s) := by
  intro x hx k
  obtain ⟨c, -, rfl⟩ := List.mem_map.mp hx
  simp

theorem IsFixed.name {ls : List Lexeme} (h : IsFixed ls) (n : String) : IsFixed (name n :: ls) := by
  intro x hx k
  rcases List.mem_cons.mp hx with rfl | hx
  · simp
  · exact h x hx k

theorem IsFixed.nil : IsFixed [] := by
  rintro x ⟨⟩

theorem IsFixed.append {xs ys : List Lexeme} (hx : IsFixed xs) (hy : IsFixed ys) :
    IsFixed (xs ++ ys) := by
  intro x h k
  rcases List.mem_append.mp h with h | h
  · exact hx x h k
  · exact hy x h k

theorem IsFixed.intercalate {xs : List Lexeme} {parts : List (List Lexeme)} (hx : IsFixed xs)
    (h : ∀ part ∈ parts, IsFixed part) : IsFixed (xs.intercalate parts) := by
  induction parts with
  | nil => exact .nil
  | cons part parts ih =>
    have hpart := h part (List.mem_cons_self ..)
    cases parts with
    | nil => simpa using hpart
    | cons next parts =>
      rw [List.intercalate_cons_cons]
      exact (hpart.append hx).append (ih fun p hp => h p (List.mem_cons_of_mem part hp))

theorem IsFixed.map_unnamed {xs : List Lexeme} (h : IsFixed xs) : xs.map unnamed = xs := by
  refine (List.map_congr_left fun x hx => ?_).trans (List.map_id xs)
  cases x with
  | hole k => exact absurd rfl (h _ hx k)
  | _ => rfl

theorem map_unnamed_eq_fixed {xs ls : List Lexeme} (h : IsFixed xs) :
    ls.map unnamed = xs ↔ ls = xs := by
  constructor
  · intro hl
    induction xs generalizing ls with
    | nil => exact List.map_eq_nil_iff.mp hl
    | cons x xs ih =>
      obtain ⟨y, ys, rfl, hy, hys⟩ := List.map_eq_cons_iff.mp hl
      have hx := h x (List.mem_cons_self ..)
      rw [ih (fun z hz => h z (List.mem_cons_of_mem x hz)) hys]
      cases y with
      | hole k => exact absurd hy.symm (hx none)
      | _ => rw [← hy]; rfl
  · rintro rfl
    exact h.map_unnamed

end Lexeme

namespace Reading
open Lexeme

namespace Place

def unnamed (p : Place) : Place := { p with key := none }

end Place

namespace Term

def unnamed : Term → Term
  | compare o p => compare o p.unnamed
  | like o p => like o p.unnamed
  | oneOf ps => oneOf (ps.map Place.unnamed)
  | oneOfRows rows => oneOfRows (rows.map (List.map Place.unnamed))
  | t => t

end Term

namespace Select

def unnamed (q : Select) : Select :=
  { q with
    filter := q.filter.map fun e => (e.1, e.2.unnamed)
    limit := q.limit.map Place.unnamed
    offset := q.offset.map Place.unnamed }

end Select

/-! Writing a query without the names of its places. -/

/-- Leaving out the names of the places is the same before the writing and after it. -/
def Lifts {α : Type} (write : α → List Lexeme) (un : α → α) : Prop :=
  ∀ a ls, ls.map unnamed = write a ↔ ∃ b, ls = write b ∧ un b = a

theorem lifts_ofPlace : Lifts ofPlace Place.unnamed := by
  have hcast : ∀ cast : Option Cast, IsFixed (cast.elim [] fun c => chars ("::" ++ c.text)) := by
    rintro (_ | c)
    · exact .nil
    · exact .chars _
  rintro ⟨k, cast⟩ ls
  constructor
  · intro h
    obtain ⟨x, ms, rfl, hx, hms⟩ := List.map_eq_cons_iff.mp h
    rw [map_unnamed_eq_fixed (hcast cast)] at hms
    cases x with
    | hole j =>
      cases hx
      exact ⟨⟨j, cast⟩, by rw [hms]; rfl, rfl⟩
    | _ => cases hx
  · rintro ⟨⟨j, c⟩, rfl, hp⟩
    cases hp
    rw [ofPlace, List.map_cons, (hcast c).map_unnamed]
    rfl

theorem Lifts.intercalate {α : Type} {write : α → List Lexeme} {un : α → α} (h : Lifts write un)
    {xs : List Lexeme} (hx : IsFixed xs) :
    Lifts (fun as => xs.intercalate (as.map write)) (List.map un) := by
  intro as ls
  induction as generalizing ls with
  | nil =>
    simp only [List.map_nil, List.intercalate_nil, List.map_eq_nil_iff]
    constructor
    · rintro rfl
      exact ⟨[], rfl, rfl⟩
    · rintro ⟨_, rfl, rfl⟩
      rfl
  | cons a as ih =>
    cases as with
    | nil =>
      simp only [List.map_cons, List.map_nil, List.intercalate_singleton, h a ls,
        List.map_eq_singleton_iff]
      constructor
      · rintro ⟨b, rfl, rfl⟩
        exact ⟨[b], by simp, b, rfl, rfl⟩
      · rintro ⟨_, rfl, b, rfl, rfl⟩
        exact ⟨b, by simp, rfl⟩
    | cons c cs =>
      simp only [List.map_cons, List.intercalate_cons_cons] at ih ⊢
      constructor
      · intro hl
        obtain ⟨l₁, ys, rfl, hl₁, hys⟩ := List.map_eq_append_iff.mp hl
        obtain ⟨us, vs, rfl, hus, hvs⟩ := List.map_eq_append_iff.mp hl₁
        obtain ⟨b, rfl, rfl⟩ := (h a us).mp hus
        obtain rfl := (map_unnamed_eq_fixed hx).mp hvs
        obtain ⟨bs, rfl, hbs⟩ := (ih ys).mp hys
        obtain ⟨e, es, rfl, rfl, rfl⟩ := List.map_eq_cons_iff.mp hbs
        exact ⟨b :: e :: es, by simp only [List.map_cons, List.intercalate_cons_cons], rfl⟩
      · rintro ⟨bs, rfl, hbs⟩
        obtain ⟨b, bs, rfl, rfl, hbs'⟩ := List.map_eq_cons_iff.mp hbs
        obtain ⟨e, es, rfl, rfl, rfl⟩ := List.map_eq_cons_iff.mp hbs'
        rw [List.map_cons, List.map_cons, List.intercalate_cons_cons, List.map_append,
          List.map_append, (h _ _).mpr ⟨b, rfl, rfl⟩, hx.map_unnamed,
          ← List.map_cons, (ih _).mpr ⟨e :: es, rfl, rfl⟩]

/-- What stands before something written stays as it is. -/
theorem Lifts.before {α : Type} {write : α → List Lexeme} {un : α → α} (h : Lifts write un)
    {xs : List Lexeme} (hx : IsFixed xs) : Lifts (fun a => xs ++ write a) un := by
  intro a ls
  constructor
  · intro hl
    obtain ⟨us, vs, rfl, hus, hvs⟩ := List.map_eq_append_iff.mp hl
    obtain ⟨b, rfl, hb⟩ := (h a vs).mp hvs
    rw [(map_unnamed_eq_fixed hx).mp hus]
    exact ⟨b, rfl, hb⟩
  · rintro ⟨b, rfl, rfl⟩
    rw [List.map_append, (h _ _).mpr ⟨b, rfl, rfl⟩, hx.map_unnamed]

theorem Lifts.behind {α : Type} {write : α → List Lexeme} {un : α → α} (h : Lifts write un)
    {ys : List Lexeme} (hy : IsFixed ys) : Lifts (fun a => write a ++ ys) un := by
  intro a ls
  constructor
  · intro hl
    obtain ⟨us, vs, rfl, hus, hvs⟩ := List.map_eq_append_iff.mp hl
    obtain ⟨b, rfl, hb⟩ := (h a us).mp hus
    rw [(map_unnamed_eq_fixed hy).mp hvs]
    exact ⟨b, rfl, hb⟩
  · rintro ⟨b, rfl, rfl⟩
    rw [List.map_append, (h _ _).mpr ⟨b, rfl, rfl⟩, hy.map_unnamed]

theorem lifts_ofPlaces : Lifts ofPlaces (List.map Place.unnamed) :=
  lifts_ofPlace.intercalate (.chars ", ")

theorem lifts_ofRow : Lifts ofRow (List.map Place.unnamed) :=
  (lifts_ofPlaces.behind (.chars ")")).before (.chars "(")

/-- Something that is written as a part of what it is put in. -/
theorem Lifts.inject {α β : Type} {write : α → List Lexeme} {un : α → α} (h : Lifts write un)
    {w : β → List Lexeme} {u : β → β} {f : α → β} (hw : ∀ a, w (f a) = write a)
    (hu : ∀ a, u (f a) = f (un a)) (hf : ∀ a b, u b = f a → ∃ c, b = f c ∧ un c = a) (a : α)
    (ls : List Lexeme) : ls.map unnamed = w (f a) ↔ ∃ b, ls = w b ∧ u b = f a := by
  rw [hw, h a ls]
  constructor
  · rintro ⟨b, rfl, rfl⟩
    exact ⟨f b, (hw b).symm, hu b⟩
  · rintro ⟨b, rfl, hb⟩
    obtain ⟨c, rfl, hc⟩ := hf a b hb
    exact ⟨c, hw c, hc⟩

theorem lifts_ofTerm (d : Dialect) : Lifts (ofTerm d) Term.unnamed := by
  -- A term without places is the same with and without names.
  have hfixed : ∀ {t : Term} {s : String}, ofTerm d t = chars s → t.unnamed = t →
      (∀ b : Term, b.unnamed = t → b = t) → ∀ ls : List Lexeme,
      ls.map unnamed = ofTerm d t ↔ ∃ b, ls = ofTerm d b ∧ Term.unnamed b = t := by
    intro t s ht hu hb ls
    rw [ht, map_unnamed_eq_fixed (.chars s)]
    constructor
    · rintro rfl
      exact ⟨t, ht.symm, hu⟩
    · rintro ⟨b, rfl, h⟩
      rw [hb b h, ht]
  intro t ls
  cases t with
  | isNull => exact hfixed rfl rfl (by intro b hb; cases b <;> cases hb; rfl) ls
  | isNotNull => exact hfixed rfl rfl (by intro b hb; cases b <;> cases hb; rfl) ls
  | flag negated value => exact hfixed rfl rfl (by intro b hb; cases b <;> cases hb; rfl) ls
  | compare o p =>
    refine (lifts_ofPlace.before (.chars (" " ++ o.text ++ " "))).inject (f := Term.compare o)
      (fun _ => rfl) (fun _ => rfl) (fun a b h => ?_) p ls
    cases b <;> cases h
    exact ⟨_, rfl, rfl⟩
  | like o p =>
    refine ((lifts_ofPlace.behind (.chars Layout.escapeClause)).before
      (.chars (" " ++ o.text ++ " "))).inject (f := Term.like o) (fun _ => rfl) (fun _ => rfl)
      (fun a b h => ?_) p ls
    cases b <;> cases h
    exact ⟨_, rfl, rfl⟩
  | oneOf ps =>
    refine ((lifts_ofPlaces.behind (.chars ")")).before (.chars " IN (")).inject (f := Term.oneOf)
      (fun _ => rfl) (fun _ => rfl) (fun a b h => ?_) ps ls
    cases b <;> cases h
    exact ⟨_, rfl, rfl⟩
  | oneOfRows rows =>
    have hlead : IsFixed ((Binding.rowsLead d).flatMap (ofNamed d)) := by
      cases d with
      | sqlite => exact (IsFixed.chars "VALUES ").append .nil
      | postgresql => exact .nil
    refine ((((lifts_ofRow.intercalate (.chars ", ")).behind (.chars ")")).before hlead).before
      (.chars " IN (")).inject (f := Term.oneOfRows) (fun _ => rfl) (fun _ => rfl)
      (fun a b h => ?_) rows ls
    cases b <;> cases h
    exact ⟨_, rfl, rfl⟩

theorem lifts_ofConjunct (d : Dialect) :
    Lifts (ofConjunct d) fun e => (e.1, e.2.unnamed) := by
  have hplain : ∀ {d : Dialect} {e : String × Term}, (d = .sqlite → ∀ p, e.2 ≠ .like .ilike p) →
      ofConjunct d e = .name e.1 :: ofTerm d e.2 := by
    intro d e h
    unfold ofConjunct
    split
    · rename_i p he
      exact absurd he (h rfl p)
    · rfl
  rintro ⟨c, t⟩ ls
  by_cases h : d = .sqlite → ∀ p, t ≠ .like .ilike p
  · rw [hplain h]
    refine ((lifts_ofTerm d).before (IsFixed.nil.name c) t ls).trans ⟨?_, ?_⟩
    · rintro ⟨b, rfl, rfl⟩
      refine ⟨(c, b), (hplain (e := (c, b)) fun hd p hb => ?_).symm, rfl⟩
      obtain rfl : b = .like .ilike p := hb
      exact h hd p.unnamed rfl
    · rintro ⟨⟨c', b⟩, rfl, hb⟩
      cases hb
      refine ⟨b, hplain (e := (c', b)) fun hd p hb => ?_, rfl⟩
      obtain rfl : b = .like .ilike p := hb
      exact h hd p.unnamed rfl
  · push Not at h
    obtain ⟨rfl, p, rfl⟩ := h
    refine ((((lifts_ofPlace.behind (.chars (")" ++ Layout.escapeClause))).before
      (.chars ") LIKE lower(")).before (IsFixed.nil.name c)).before (.chars "lower(") p ls).trans
      ⟨?_, ?_⟩
    · rintro ⟨b, rfl, rfl⟩
      exact ⟨(c, .like .ilike b), rfl, rfl⟩
    · rintro ⟨⟨c', b⟩, rfl, hb⟩
      cases b <;> cases hb
      exact ⟨_, rfl, rfl⟩

theorem Lifts.optional {α : Type} {write : α → List Lexeme} {un : α → α} (h : Lifts write un)
    (lead separator : String) :
    Lifts (fun as => ofOptional lead separator (as.map write)) (List.map un) := by
  have hcons : ∀ as : List α, as ≠ [] → ofOptional lead separator (as.map write) =
      chars lead ++ (chars separator).intercalate (as.map write) :=
    fun as has => if_neg (by simpa using has)
  intro as ls
  by_cases has : as = []
  · subst has
    change ls.map unnamed = [] ↔ _
    rw [List.map_eq_nil_iff]
    constructor
    · rintro rfl
      exact ⟨[], rfl, rfl⟩
    · rintro ⟨bs, rfl, hbs⟩
      rw [List.map_eq_nil_iff.mp hbs]
      rfl
  · simp only [hcons as has]
    refine ((h.intercalate (.chars separator)).before (.chars lead) as ls).trans ⟨?_, ?_⟩
    · rintro ⟨bs, rfl, rfl⟩
      exact ⟨bs, (hcons bs fun hb => has (by rw [hb]; rfl)).symm, rfl⟩
    · rintro ⟨bs, rfl, rfl⟩
      exact ⟨bs, hcons bs fun hb => has (by rw [hb]; rfl), rfl⟩

theorem map_unnamed_ofBounds {d : Dialect} {limit offset : Option Place} {ls : List Lexeme} :
    ls.map unnamed = ofBounds d limit offset ↔
      ∃ l o, ls = ofBounds d l o ∧ l.map Place.unnamed = limit ∧ o.map Place.unnamed = offset := by
  rcases limit with _ | l <;> rcases offset with _ | o
  · refine List.map_eq_nil_iff.trans ⟨?_, ?_⟩
    · rintro rfl
      exact ⟨none, none, rfl, rfl, rfl⟩
    · rintro ⟨l, o, rfl, hl, ho⟩
      rw [Option.map_eq_none_iff.mp hl, Option.map_eq_none_iff.mp ho]
      rfl
  · refine (lifts_ofPlace.before (.chars "\n LIMIT ALL OFFSET ") o ls).trans ⟨?_, ?_⟩
    · rintro ⟨b, rfl, rfl⟩
      exact ⟨none, some b, rfl, rfl, rfl⟩
    · rintro ⟨l, o, rfl, hl, ho⟩
      obtain ⟨b, rfl, rfl⟩ := Option.map_eq_some_iff.mp ho
      rw [Option.map_eq_none_iff.mp hl]
      exact ⟨b, rfl, rfl⟩
  · refine (lifts_ofPlace.before (.chars (limitLead d)) l ls).trans ⟨?_, ?_⟩
    · rintro ⟨b, rfl, rfl⟩
      exact ⟨some b, none, rfl, rfl, rfl⟩
    · rintro ⟨l, o, rfl, hl, ho⟩
      obtain ⟨b, rfl, rfl⟩ := Option.map_eq_some_iff.mp hl
      rw [Option.map_eq_none_iff.mp ho]
      exact ⟨b, rfl, rfl⟩
  · constructor
    · intro h
      obtain ⟨us, ms, rfl, hus, hms⟩ := List.map_eq_append_iff.mp h
      obtain ⟨vs, ws, rfl, hvs, hws⟩ := List.map_eq_append_iff.mp hms
      obtain ⟨a, rfl, rfl⟩ := (lifts_ofPlace l vs).mp hvs
      obtain ⟨b, rfl, rfl⟩ := (lifts_ofPlace.before (.chars " OFFSET ") o ws).mp hws
      rw [(map_unnamed_eq_fixed (.chars _)).mp hus]
      exact ⟨some a, some b, rfl, rfl, rfl⟩
    · rintro ⟨l', o', rfl, hl, ho⟩
      obtain ⟨a, rfl, rfl⟩ := Option.map_eq_some_iff.mp hl
      obtain ⟨b, rfl, rfl⟩ := Option.map_eq_some_iff.mp ho
      rw [ofBounds, List.map_append, List.map_append, (IsFixed.chars _).map_unnamed,
        (lifts_ofPlace _ _).mpr ⟨a, rfl, rfl⟩,
        (lifts_ofPlace.before (.chars " OFFSET ") _ _).mpr ⟨b, rfl, rfl⟩]
      rfl

theorem isFixed_ofColumns (c : Columns) : IsFixed (ofColumns c) := by
  cases c with
  | all => exact .chars "*"
  | named ns =>
    refine IsFixed.intercalate (.chars ", ") fun part hp => ?_
    obtain ⟨n, -, rfl⟩ := List.mem_map.mp hp
    exact IsFixed.nil.name n

theorem isFixed_ofTarget (t : Target) : IsFixed (ofTarget t) := by
  obtain ⟨schema, table⟩ := t
  cases schema with
  | none => exact IsFixed.nil.name table
  | some s => exact ((IsFixed.chars ".").name s).append (IsFixed.nil.name table)

theorem isFixed_ofOrder (order : List (String × Direction)) :
    IsFixed (ofOptional " ORDER BY " ", " (order.map ofOrderItem)) := by
  unfold ofOptional
  split
  · exact .nil
  · refine (IsFixed.chars _).append (IsFixed.intercalate (.chars ", ") fun part hp => ?_)
    obtain ⟨o, -, rfl⟩ := List.mem_map.mp hp
    exact (IsFixed.chars _).name o.1

theorem lifts_ofSelect (d : Dialect) : Lifts (ofSelect d) Select.unnamed := by
  have hfilter := (lifts_ofConjunct d).optional " \nWHERE " " AND "
  rintro ⟨c, t, f, order, limit, offset⟩ ls
  constructor
  · intro h
    obtain ⟨u₁, m₁, rfl, h₁, r₁⟩ := List.map_eq_append_iff.mp h
    obtain ⟨u₂, m₂, rfl, h₂, r₂⟩ := List.map_eq_append_iff.mp r₁
    obtain ⟨u₃, m₃, rfl, h₃, r₃⟩ := List.map_eq_append_iff.mp r₂
    obtain ⟨u₄, m₄, rfl, h₄, r₄⟩ := List.map_eq_append_iff.mp r₃
    obtain ⟨u₅, m₅, rfl, h₅, r₅⟩ := List.map_eq_append_iff.mp r₄
    obtain ⟨u₆, m₆, rfl, h₆, r₆⟩ := List.map_eq_append_iff.mp r₅
    obtain ⟨g, rfl, hg⟩ := (hfilter f u₅).mp h₅
    obtain ⟨l, o, rfl, hl, ho⟩ := map_unnamed_ofBounds.mp r₆
    rw [(map_unnamed_eq_fixed (.chars _)).mp h₁, (map_unnamed_eq_fixed (isFixed_ofColumns c)).mp h₂,
      (map_unnamed_eq_fixed (.chars _)).mp h₃, (map_unnamed_eq_fixed (isFixed_ofTarget t)).mp h₄,
      (map_unnamed_eq_fixed (isFixed_ofOrder order)).mp h₆]
    exact ⟨⟨c, t, g, order, l, o⟩, rfl, by simp only [Select.unnamed, hg, hl, ho]⟩
  · rintro ⟨⟨c', t', g, order', l, o⟩, rfl, hq⟩
    cases hq
    simp only [ofSelect, List.map_append, (IsFixed.chars _).map_unnamed,
      (isFixed_ofColumns _).map_unnamed, (isFixed_ofTarget _).map_unnamed,
      (isFixed_ofOrder _).map_unnamed, (hfilter _ _).mpr ⟨g, rfl, rfl⟩,
      map_unnamed_ofBounds.mpr ⟨l, o, rfl, rfl, rfl⟩]

end Reading
end TableQuery
