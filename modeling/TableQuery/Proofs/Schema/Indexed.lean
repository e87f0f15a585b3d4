import TableQuery.Proofs.Schema.Records

/-! Findings behind an index. A check that is told the position of an item puts it in front of the paths,
and does nothing else with it. -/

namespace TableQuery

/-- The finding some positions later: the path starts with an index, which is so much larger. -/
def Finding.moved (n : Nat) (f : Finding) : Finding :=
  let digits := f.path.toList.takeWhile Char.isDigit
  { f with path := toString (Nat.ofDigitChars 10 digits 0 + n) ++
      String.ofList (f.path.toList.dropWhile Char.isDigit) }

namespace Schema
open Outcome

variable {m : Model} {o : Overlay} {v : Value}

/-! Paths that start with an index. -/

/-- What stands behind the index in a path: nothing, or the next steps behind a dot. -/
inductive Tail : String → Prop
  | nil : Tail ""
  | steps (s : String) : Tail ("." ++ s)

/-- The path of the finding has the index in front. -/
def Below (index : Nat) (g : Finding) : Prop := ∃ rest, Tail rest ∧ g.path = toString index ++ rest

theorem finding_indexed (index : Nat) (rest message : String) :
    finding (toString index ++ rest) message = ⟨toString index ++ rest, message⟩ := by
  have hne : (toString index ++ rest).isEmpty = false := by
    rw [← Bool.not_eq_true, String.isEmpty_iff, String.append_eq_empty_iff]
    rintro ⟨h, -⟩
    simpa using congrArg String.toList h
  rw [finding, hne]
  rfl

theorem moved_indexed {rest : String} (h : Tail rest) (index n : Nat) (message : String) :
    (finding (toString index ++ rest) message).moved n =
      finding (toString (index + n) ++ rest) message := by
  have hdigits : ∀ c ∈ (toString index).toList, c.isDigit = true := by
    intro c hc
    rw [Nat.toString_eq_repr, Nat.toList_repr] at hc
    exact Nat.isDigit_of_mem_toDigits (by decide) (by decide) hc
  have hrest : rest.toList.takeWhile Char.isDigit = [] ∧
      rest.toList.dropWhile Char.isDigit = rest.toList := by
    cases h with
    | nil => exact ⟨rfl, rfl⟩
    | steps s => simp
  rw [finding_indexed, finding_indexed, Finding.moved]
  simp only [String.toList_append, List.takeWhile_append_of_pos hdigits,
    List.dropWhile_append_of_pos hdigits, hrest.1, hrest.2, List.append_nil, String.ofList_toList]
  have hindex : Nat.ofDigitChars 10 (toString index).toList 0 = index := by simp
  rw [hindex]

/-- Findings that differ in the index only. -/
def Indexed (found : Nat → List Finding) : Prop := ∃ parts : List (String × String),
  (∀ p ∈ parts, Tail p.1) ∧ ∀ i, found i = parts.map fun p => finding (toString i ++ p.1) p.2

namespace Indexed

variable {found found' : Nat → List Finding}

theorem moved (h : Indexed found) (i n : Nat) : found (i + n) = (found i).map (Finding.moved n) := by
  obtain ⟨parts, htails, heq⟩ := h
  rw [heq, heq, List.map_map]
  exact List.map_congr_left fun p hp => (moved_indexed (htails p hp) i n p.2).symm

theorem below (h : Indexed found) {i : Nat} {g : Finding} (hg : g ∈ found i) : Below i g := by
  obtain ⟨parts, htails, heq⟩ := h
  rw [heq] at hg
  obtain ⟨p, hp, rfl⟩ := List.mem_map.mp hg
  exact ⟨p.1, htails p hp, by rw [finding_indexed]⟩

theorem nil : Indexed fun _ => [] := ⟨[], nofun, fun _ => rfl⟩

theorem one {rest : String} (h : Tail rest) (message : String) :
    Indexed fun i => [finding (toString i ++ rest) message] :=
  ⟨[(rest, message)], fun _ hp => List.eq_of_mem_singleton hp ▸ h, fun _ => rfl⟩

theorem append (h : Indexed found) (h' : Indexed found') : Indexed fun i => found i ++ found' i := by
  obtain ⟨parts, htails, heq⟩ := h
  obtain ⟨parts', htails', heq'⟩ := h'
  refine ⟨parts ++ parts', fun p hp => ?_, fun i => ?_⟩
  · rcases List.mem_append.mp hp with hp | hp
    · exact htails p hp
    · exact htails' p hp
  · rw [List.map_append, ← heq, ← heq']

theorem flatMap {α : Type} {as : List α} {part : Nat → α → List Finding}
    (h : ∀ a ∈ as, Indexed fun i => part i a) : Indexed fun i => as.flatMap (part i) := by
  induction as with
  | nil => exact nil
  | cons a as ih =>
    obtain ⟨ha, hrest⟩ := List.forall_mem_cons.mp h
    exact ha.append (ih hrest)

end Indexed

/-- A check of one item, told the index: it finds the same at every index, or fails at every index. -/
inductive IndexedCheck (check : Nat → Outcome (List Finding)) : Prop
  | found {found : Nat → List Finding} (indexed : Indexed found) (ok : ∀ i, check i = .ok (found i))
  | fault {e : Fault} (error : ∀ i, check i = .error e)

namespace IndexedCheck

variable {check check' : Nat → Outcome (List Finding)}

theorem moved (h : IndexedCheck check) (i n : Nat) :
    check (i + n) = List.map (Finding.moved n) <$> check i := by
  cases h with
  | found indexed ok =>
    rw [ok, ok, indexed.moved]
    rfl
  | fault error =>
    rw [error, error]
    rfl

theorem below (h : IndexedCheck check) {i : Nat} {found : List Finding} (hf : check i = .ok found) :
    ∀ g ∈ found, Below i g := by
  cases h with
  | found indexed ok =>
    cases (ok i).symm.trans hf
    exact fun g hg => indexed.below hg
  | fault error => cases (error i).symm.trans hf

theorem append (h : IndexedCheck check) (h' : IndexedCheck check') : IndexedCheck fun i => (do
      let here ← check i
      let rest ← check' i
      pure (here ++ rest)) := by
  cases h with
  | fault error => exact .fault fun i => by rw [error]; rfl
  | found indexed ok =>
    cases h' with
    | fault error => exact .fault fun i => by rw [ok, error]; rfl
    | found indexed' ok' => exact .found (indexed.append indexed') fun i => by rw [ok, ok']; rfl

/-- One finding that is told of a value. -/
theorem tell {rest : String} (h : Tail rest) (v : Value) (message : String) :
    IndexedCheck fun i => v.tell [finding (toString i ++ rest) message] := by
  cases hv : v.hasText with
  | true => exact .found (.one h message) fun i => tell_eq_ok.mpr ⟨hv, rfl⟩
  | false => exact .fault fun i => tell_eq_error.mpr ⟨hv, rfl⟩

end IndexedCheck

/-! Conditions. -/

theorem indexed_checkAs (f : Field) (v : Value) {rest : String} (h : Tail rest) :
    IndexedCheck fun i => checkAs f (.str (toString i ++ rest)) v := by
  unfold checkAs
  cases f.type.check f.rule v with
  | error e => exact .fault fun _ => rfl
  | ok verdict =>
    have hissues := Indexed.flatMap fun (i : Issue) (_ : i ∈ verdict.issues) => .one h i.message
    refine .found hissues fun i => congrArg Except.ok ?_
    rw [List.map_eq_flatMap]
    rfl

theorem indexed_checkMembers (f : Field) (rest : String) (j : Nat) (vs : List Value) :
    IndexedCheck fun i => checkMembers f (toString i ++ ("." ++ rest)) j vs := by
  induction vs generalizing j with
  | nil => exact .found .nil fun _ => rfl
  | cons v vs ih =>
    have hpath : ∀ i : Nat, toString i ++ ("." ++ rest) ++ "." ++ toString j =
        toString i ++ ("." ++ (rest ++ "." ++ toString j)) := by
      intro i
      simp only [String.append_assoc]
    have hhere := indexed_checkAs f v (.steps (rest ++ "." ++ toString j))
    simp only [checkMembers, hpath]
    exact hhere.append (ih (j + 1))

theorem indexed_checkParts (m : Model) (k o w : Value) :
    IndexedCheck fun i => checkParts m i k o w := by
  have hone : ∀ s message, IndexedCheck fun i => .ok [finding (toString i ++ ("." ++ s)) message] :=
    fun s message => .found (.one (.steps s) message) fun _ => rfl
  have hnone : IndexedCheck fun _ => .ok [] := .found .nil fun _ => rfl
  unfold checkParts
  simp only [String.append_assoc]
  cases ModelOf.field? m k with
  | none => exact .tell (.steps "field") k _
  | some f =>
    dsimp only
    cases o.text?.bind Operator.ofText? with
    | none => exact .tell (.steps "operator") o _
    | some op =>
      cases op with
      | nullCheck c =>
        dsimp only
        split
        · exact hnone
        · exact hone _ _
      | membership =>
        dsimp only
        split
        · exact indexed_checkMembers f _ 0 _
        · exact hone _ _
      | like c =>
        dsimp only
        split
        · exact hnone
        · exact hone _ _
      | comparison c =>
        dsimp only
        split
        · exact hone _ _
        · exact indexed_checkAs f _ (.steps _)

theorem indexed_checkCondition (m : Model) (x : Value) :
    IndexedCheck fun i => checkCondition m i x := by
  simp only [checkCondition_eq]
  cases parts? x with
  | some parts => exact indexed_checkParts m _ _ _
  | none =>
    dsimp only
    split
    · exact .fault fun _ => rfl
    · refine .found (.one .nil "Expected a condition") fun i => ?_
      rw [String.append_empty]
      rfl

/-! Records. -/

/-- The result with its findings moved on. -/
def Result.moved (n : Nat) (r : Result) : Result :=
  { r with findings := r.findings.map (Finding.moved n) }

/-- A path below an index has the index in front, whatever the index. -/
theorem intercalate_indexed (steps : List String) : ∃ rest, Tail rest ∧
    ∀ index : Nat, ".".intercalate ([toString index] ++ steps) = toString index ++ rest := by
  cases steps with
  | nil => exact ⟨"", .nil, fun index => by simp⟩
  | cons s steps =>
    refine ⟨"." ++ ".".intercalate (s :: steps), .steps _, fun index => ?_⟩
    rw [List.singleton_append, String.intercalate_cons_cons, String.append_assoc]

theorem indexed_unknownAt (m : Model) (v : Value) : Indexed fun i => unknownAt m [toString i] v := by
  simp only [unknownAt, List.map_eq_flatMap]
  refine .flatMap fun k _ => ?_
  obtain ⟨rest, htail, hpath⟩ := intercalate_indexed [k.plain]
  simp only [hpath]
  exact .one htail _

/-- The unknown keys are found at every index, or cannot be told of at any. -/
theorem indexed_unknownFindings (m : Model) (v : Value) :
    IndexedCheck fun i => unknownFindings m [toString i] v := by
  by_cases htext : ∀ k ∈ unknownKeys m v, k.hasText
  · exact .found (indexed_unknownAt m v) fun i => unknownFindings_eq_ok.mpr ⟨htext, rfl⟩
  · push Not at htext
    obtain ⟨k, hk, long⟩ := htext
    exact .fault fun i =>
      unknownFindings_eq_error.mpr ⟨⟨k, hk, Bool.eq_false_iff.mpr long⟩, rfl⟩

theorem indexed_findings (issues : List Issue) : Indexed fun i => findings [toString i] issues := by
  simp only [findings, List.map_eq_flatMap]
  refine .flatMap fun i _ => ?_
  obtain ⟨rest, htail, hpath⟩ := intercalate_indexed (i.path.map Step.text)
  simp only [List.map_eq_flatMap] at hpath
  simp only [hpath]
  exact .one htail _

theorem validateRecord_moved (o : Overlay) (i n : Nat) (v : Value) :
    validateRecord o [toString (i + n)] v = Result.moved n <$> validateRecord o [toString i] v := by
  unfold validateRecord
  cases indexed_unknownFindings o.model v with
  | fault error =>
    rw [error, error]
    rfl
  | @found unknown indexed ok =>
    rw [ok, ok]
    cases o.check v with
    | error e => rfl
    | ok verdict =>
      have hfound := (indexed.append (indexed_findings verdict.issues)).moved i n
      simp only [bind, Except.bind, hfound]
      cases verdict with
      | error issues => rfl
      | ok c =>
        cases unknown i ++ findings [toString i] (Verdict.issues (.ok c)) with
        | nil =>
          simp only [List.map_nil]
          cases c.given <;> rfl
        | cons first rest => rfl

theorem below_validateRecord {i : Nat} {r : Result} (h : validateRecord o [toString i] v = .ok r) :
    ∀ g ∈ r.findings, Below i g := by
  obtain ⟨verdict, -, hfound, -⟩ := validateRecord_cases h
  rw [hfound]
  exact fun g => ((indexed_unknownAt o.model v).append (indexed_findings verdict.issues)).below

/-! Checks that go through a list and know the position of what they look at. -/

/-- Groups of findings, each moved on to the position of its item. -/
def placed (groups : List (List Finding)) : List Finding :=
  (groups.mapIdx fun i g => g.map (Finding.moved i)).flatten

section Each

variable {α : Type} {check : Nat → Value → Outcome α}

/-- What such a check has to say of each item. -/
def each (check : Nat → Value → Outcome α) (index : Nat) (xs : List Value) : Outcome (List α) :=
  (xs.zipIdx index).mapM fun p => check p.2 p.1

theorem each_cons (index : Nat) (x : Value) (xs : List Value) : each check index (x :: xs) = do
    let first ← check index x
    let rest ← each check (index + 1) xs
    return first :: rest := by
  rw [each, List.zipIdx_cons, List.mapM_cons]
  rfl

theorem each_append (index : Nat) (xs ys : List Value) : each check index (xs ++ ys) = do
    let here ← each check index xs
    let rest ← each check (index + xs.length) ys
    return here ++ rest := by
  rw [each, List.zipIdx_append, List.mapM_append]
  rfl

variable {move : Nat → α → α} (h : ∀ i n x, check (i + n) x = move n <$> check i x)
include h

theorem each_moved (index n : Nat) (xs : List Value) :
    each check (index + n) xs = List.map (move n) <$> each check index xs := by
  induction xs generalizing index with
  | nil => rfl
  | cons x xs ih =>
    rw [each_cons, each_cons, h, Nat.add_right_comm, ih]
    cases check index x with
    | error e => rfl
    | ok first => cases each check (index + 1) xs <;> rfl

/-- Each item is checked as it is in front, and what is said of it is moved on to its position. -/
theorem each_eq_ok (index : Nat) {xs : List Value} {as : List α} :
    each check index xs = .ok as ↔ ∃ alone, List.Forall₂ (fun x a => check 0 x = .ok a) xs alone ∧
      as = alone.mapIdx fun i => move (index + i) := by
  induction xs generalizing index as with
  | nil =>
    simp only [List.forall₂_nil_left_iff, exists_eq_left, List.mapIdx_nil]
    exact pure_eq_ok.trans eq_comm
  | cons x xs ih =>
    have hx : check index x = move index <$> check 0 x := by
      rw [← h, Nat.zero_add]
    rw [each_cons, hx]
    constructor
    · intro hok
      obtain ⟨first, hf, hok⟩ := bind_eq_ok.mp hok
      obtain ⟨rest, hr, hok⟩ := bind_eq_ok.mp hok
      cases pure_eq_ok.mp hok
      obtain ⟨a, ha, rfl⟩ := map_eq_ok.mp hf
      obtain ⟨alone, halone, rfl⟩ := (ih _).mp hr
      refine ⟨a :: alone, .cons ha halone, ?_⟩
      simp only [List.mapIdx_cons, Nat.add_zero, Nat.add_assoc, Nat.add_comm 1]
    · rintro ⟨alone, halone, rfl⟩
      obtain ⟨a, rest, ha, hrest, rfl⟩ := List.forall₂_cons_left_iff.mp halone
      refine bind_eq_ok.mpr ⟨_, map_eq_ok.mpr ⟨a, ha, rfl⟩, bind_eq_ok.mpr
        ⟨_, (ih _).mpr ⟨rest, hrest, rfl⟩, ?_⟩⟩
      simp only [List.mapIdx_cons, Nat.add_zero, Nat.add_assoc, Nat.add_comm 1]
      rfl

theorem exists_each (index : Nat) {xs : List Value} :
    (∃ as, each check index xs = .ok as) ↔ ∀ x ∈ xs, ∃ a, check 0 x = .ok a := by
  simp only [each_eq_ok h]
  constructor
  · rintro ⟨-, alone, halone, -⟩ x hx
    obtain ⟨a, -, ha⟩ := Lists.exists_of_mem_left halone hx
    exact ⟨a, ha⟩
  · intro hall
    obtain ⟨alone, halone⟩ := Lists.exists_forall₂ hall
    exact ⟨_, alone, halone, rfl⟩

/-! Findings of the items. -/

variable {found : α → List Finding} (hf : ∀ n a, found (move n a) = (found a).map (Finding.moved n))
include hf

theorem findings_each_append (xs ys : List Value) :
    List.flatMap found <$> each check 0 (xs ++ ys) = do
      let here ← List.flatMap found <$> each check 0 xs
      let rest ← List.flatMap found <$> each check 0 ys
      return here ++ rest.map (Finding.moved xs.length) := by
  rw [each_append, each_moved h]
  cases each check 0 xs with
  | error e => rfl
  | ok here =>
    cases each check 0 ys with
    | error e => rfl
    | ok rest =>
      refine congrArg Except.ok ?_
      simp only [List.flatMap_append, List.flatMap_map, List.map_flatMap, hf]

theorem findings_each {xs : List Value} {gs : List Finding}
    (hg : List.flatMap found <$> each check 0 xs = .ok gs) : ∃ alone,
      List.Forall₂ (fun x a => check 0 x = .ok a) xs alone ∧ gs = placed (alone.map found) := by
  obtain ⟨as, has, rfl⟩ := map_eq_ok.mp hg
  obtain ⟨alone, halone, rfl⟩ := (each_eq_ok h 0).mp has
  refine ⟨alone, halone, ?_⟩
  rw [placed, List.flatMap_def, Lists.map_mapIdx, Lists.mapIdx_map]
  simp only [Nat.zero_add, hf]

end Each

end Schema
end TableQuery
