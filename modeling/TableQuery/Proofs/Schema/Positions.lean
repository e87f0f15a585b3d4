import TableQuery.Proofs.Schema.Checkable
import TableQuery.Proofs.Schema.Indexed
import TableQuery.Proofs.Schema.Payloads

/-! Findings in lists. What is found wrong with an item of a list is what is found wrong with it alone,
behind the position that it has in the list, so that the findings of two lists make those of both. -/

namespace TableQuery
namespace Schema
open Outcome

variable {m : Model} {o : Overlay} {f : Field} {v x : Value}

/-! Lists as checks of their items. -/

theorem checkConditions_eq (m : Model) (index : Nat) (xs : List Value) :
    checkConditions m index xs = List.flatten <$> each (checkCondition m) index xs := by
  induction xs generalizing index with
  | nil => rfl
  | cons x xs ih =>
    rw [checkConditions, each_cons, ih]
    cases checkCondition m index x with
    | error e => rfl
    | ok here => cases each (checkCondition m) (index + 1) xs <;> rfl

theorem validateFilter_eq {xs : List Value} (hi : v.items? = some xs) :
    validateFilter m v = do return ⟨v, (← each (checkCondition m) 0 xs).flatten⟩ := by
  have hother : v.isNone = false ∧ v.entries? = none := by
    cases v <;> first | exact ⟨rfl, rfl⟩ | cases hi
  rw [validateFilter, hother.1, hother.2, hi]
  dsimp only
  rw [checkConditions_eq]
  cases each (checkCondition m) 0 xs <;> rfl

theorem validateEach_eq (o : Overlay) (index : Nat) (xs : List Value) :
    validateEach o index xs = each (fun i => validateRecord o [toString i]) index xs := by
  induction xs generalizing index with
  | nil => rfl
  | cons x xs ih => rw [validateEach, each_cons, ih]

theorem validateRecord_of_found {before : List String} {verdict : Verdict}
    (htext : ∀ k ∈ unknownKeys o.model v, k.hasText) (hv : o.check v = .ok verdict)
    (hne : unknownAt o.model before v ++ findings before verdict.issues ≠ []) :
    validateRecord o before v =
      .ok ⟨.none, unknownAt o.model before v ++ findings before verdict.issues⟩ := by
  refine bind_eq_ok.mpr ⟨_, unknownFindings_eq_ok.mpr ⟨htext, rfl⟩, bind_eq_ok.mpr ⟨verdict, hv, ?_⟩⟩
  dsimp only
  split
  · rename_i hnil
    exact absurd hnil hne
  · rfl

/-- What is in front of the paths changes neither whether a record is sound nor its data. -/
theorem validateRecord_before {before : List String} {r : Result}
    (h : validateRecord o before v = .ok r) (before' : List String) :
    ∃ r', validateRecord o before' v = .ok r' ∧ (r'.findings = [] ↔ r.findings = []) ∧
      (r.findings = [] → r'.data = r.data) := by
  obtain ⟨verdict, hv, hfound, hdata⟩ := validateRecord_cases h
  have hnil : ∀ before, unknownAt o.model before v ++ findings before verdict.issues = [] ↔
      (∀ e ∈ v.entries?.getD [], ∃ f, ModelOf.field? o.model e.1 = some f) ∧ verdict.issues = [] := by
    intro before
    rw [List.append_eq_nil_iff, unknownAt_eq_nil, findings_eq_nil]
  by_cases hnone : r.findings = []
  · obtain ⟨r', h', hnone'⟩ := exists_sound.mpr (exists_sound.mp ⟨r, h, hnone⟩)
    refine ⟨r', h', iff_of_true hnone' hnone, fun _ => ?_⟩
    obtain ⟨verdict', hv', -, hdata'⟩ := validateRecord_cases h'
    cases hv.symm.trans hv'
    obtain ⟨c, rfl, hd⟩ := hdata hnone
    obtain ⟨c', hc, hd'⟩ := hdata' hnone'
    cases hc
    exact Except.ok.inj (hd'.symm.trans hd)
  · have hne : unknownAt o.model before' v ++ findings before' verdict.issues ≠ [] := fun h' =>
      hnone (hfound.trans ((hnil before).mpr ((hnil before').mp h')))
    exact ⟨_, validateRecord_of_found (told_of_validateRecord h) hv hne, iff_of_false hne hnone,
      fun h' => absurd h' hnone⟩

theorem validateRecords_eq {xs : List Value} (hi : v.items? = some xs) : validateRecords o v = do
    let results ← each (fun i => validateRecord o [toString i]) 0 xs
    let found := results.flatMap (·.findings)
    return if found.isEmpty then ⟨.list (results.map (·.data)), []⟩ else ⟨.none, found⟩ := by
  rw [validateRecords, hi]
  dsimp only
  rw [validateEach_eq]

/-! Lists put together, and lists item by item. -/

theorem Result.isOk_iff {r : Result} : r.isOk ↔ r.findings = [] := List.isEmpty_iff

/-- The findings of two lists, those of the second one moved on, are those of both lists. The findings of
a list are those of its items, each item in front of a list by itself and then moved on. -/
structure Composes (check : Value → Outcome Result) : Prop where
  append : ∀ {v vx vy : Value} {xs ys : List Value}, v.items? = some (xs ++ ys) →
    vx.items? = some xs → vy.items? = some ys → Result.findings <$> check v = do
      let here ← Result.findings <$> check vx
      let rest ← Result.findings <$> check vy
      return here ++ rest.map (Finding.moved xs.length)
  isOk : ∀ {v vx vy : Value} {xs ys : List Value} {r a b : Result}, v.items? = some (xs ++ ys) →
    vx.items? = some xs → vy.items? = some ys → check v = .ok r → check vx = .ok a →
    check vy = .ok b → (r.isOk ↔ a.isOk ∧ b.isOk)
  alone : ∀ {v : Value} {xs : List Value} {r : Result}, v.items? = some xs → check v = .ok r →
    ∃ groups, List.Forall₂ (fun x g => Result.findings <$> check (.list [x]) = .ok g ∧
      ∀ h ∈ g, Below 0 h) xs groups ∧ r.findings = placed groups

theorem composes_of_each {α : Type} {whole : Value → Outcome Result} (check : Nat → Value → Outcome α)
    (move : Nat → α → α) (found : α → List Finding)
    (hwhole : ∀ {v xs}, v.items? = some xs →
      Result.findings <$> whole v = List.flatMap found <$> each check 0 xs)
    (hmove : ∀ i n x, check (i + n) x = move n <$> check i x)
    (hfound : ∀ n a, found (move n a) = (found a).map (Finding.moved n))
    (hbelow : ∀ x a, check 0 x = .ok a → ∀ g ∈ found a, Below 0 g) : Composes whole := by
  have happend : ∀ {v vx vy : Value} {xs ys : List Value}, v.items? = some (xs ++ ys) →
      vx.items? = some xs → vy.items? = some ys → Result.findings <$> whole v = do
        let here ← Result.findings <$> whole vx
        let rest ← Result.findings <$> whole vy
        return here ++ rest.map (Finding.moved xs.length) := by
    intro v vx vy xs ys hv hx hy
    rw [hwhole hv, hwhole hx, hwhole hy]
    exact findings_each_append hmove hfound xs ys
  refine ⟨happend, ?_, ?_⟩
  · intro v vx vy xs ys r a b hv hx hy hr ha hb
    have h := happend hv hx hy
    rw [hr, ha, hb] at h
    have h : r.findings = a.findings ++ b.findings.map (Finding.moved xs.length) := Except.ok.inj h
    rw [Result.isOk_iff, Result.isOk_iff, Result.isOk_iff, h, List.append_eq_nil_iff,
      List.map_eq_nil_iff]
  · intro v xs r hi hr
    have h := hwhole hi
    rw [hr] at h
    obtain ⟨alone, halone, hplaced⟩ := findings_each hmove hfound h.symm
    refine ⟨alone.map found, List.forall₂_map_right_iff.mpr (halone.imp fun x a ha => ?_), hplaced⟩
    have hone : Result.findings <$> whole (.list [x]) = .ok (found a) := by
      rw [hwhole rfl, each_cons, ha]
      exact congrArg Except.ok (List.append_nil _)
    exact ⟨hone, hbelow x a ha⟩

theorem composes_validateFilter (m : Model) : Composes (validateFilter m) := by
  refine composes_of_each (checkCondition m) (fun n => List.map (Finding.moved n)) id
    (fun {v xs} hi => ?_) (fun i n x => (indexed_checkCondition m x).moved i n) (fun _ _ => rfl)
    fun x _ => (indexed_checkCondition m x).below
  rw [validateFilter_eq hi]
  cases each (checkCondition m) 0 xs with
  | error e => rfl
  | ok groups => exact congrArg Except.ok List.flatMap_id.symm

theorem composes_validateRecords (o : Overlay) : Composes (validateRecords o) := by
  refine composes_of_each (fun i => validateRecord o [toString i]) Result.moved Result.findings
    (fun {v xs} hi => ?_) (validateRecord_moved o) (fun _ _ => rfl) fun _ _ => below_validateRecord
  rw [validateRecords_eq hi]
  cases each (fun i => validateRecord o [toString i]) 0 xs with
  | error e => rfl
  | ok results =>
    refine congrArg Except.ok ?_
    split
    · rename_i hnone
      exact (List.isEmpty_iff.mp hnone).symm
    · rfl

/-- A filter is judged just where each of its conditions can be checked. -/
theorem exists_validateFilter {xs : List Value} (hi : v.items? = some xs) :
    (∃ r, validateFilter m v = .ok r) ↔ ∀ x ∈ xs, Checkable m x := by
  rw [validateFilter_eq hi, exists_bind]
  refine Iff.trans (exists_congr fun groups => and_iff_left ⟨_, rfl⟩) ?_
  rw [exists_each fun i n x => (indexed_checkCondition m x).moved i n]
  exact forall₂_congr fun x _ => exists_checkCondition

/-- A batch is judged just where each of its records is by itself. -/
theorem exists_validateRecords {xs : List Value} (hi : v.items? = some xs) :
    (∃ r, validateRecords o v = .ok r) ↔ ∀ x ∈ xs, ∃ s, validateRecord o [] x = .ok s := by
  rw [validateRecords_eq hi, exists_bind]
  refine Iff.trans (exists_congr fun results => and_iff_left ⟨_, rfl⟩) ?_
  rw [exists_each (validateRecord_moved o)]
  refine forall₂_congr fun x _ => ⟨?_, ?_⟩
  · rintro ⟨r, hr⟩
    obtain ⟨s, hs, -⟩ := validateRecord_before hr []
    exact ⟨s, hs⟩
  · rintro ⟨s, hs⟩
    obtain ⟨r, hr, -⟩ := validateRecord_before hs [toString 0]
    exact ⟨r, hr⟩

/-- A batch is sound where each of its records is by itself. -/
theorem isOk_validateRecords {xs : List Value} (hi : v.items? = some xs) {r : Result}
    (h : validateRecords o v = .ok r) :
    r.isOk ↔ ∀ x ∈ xs, ∃ s, validateRecord o [] x = .ok s ∧ s.isOk := by
  have hsingle := (exists_validateRecords hi).mp ⟨r, h⟩
  rw [Result.isOk_iff, (validateRecords_eq_ok h).1, hi]
  simp only [Option.some.injEq, exists_eq_left', Result.isOk_iff]
  refine forall₂_congr fun x hx => ⟨fun hp => ?_, ?_⟩
  · obtain ⟨s, hs⟩ := hsingle x hx
    exact ⟨s, hs, (validateRecord_eq_ok hs).1.mpr hp⟩
  · rintro ⟨s, hs, hnone⟩
    exact (validateRecord_eq_ok hs).1.mp hnone

/-- The data of a sound batch are those of its records, in their order. An unsound one has none. -/
theorem data_validateRecords {xs : List Value} (hi : v.items? = some xs) {r : Result}
    (h : validateRecords o v = .ok r) :
    (r.isOk → ∃ datas, List.Forall₂ (fun x d => validateRecord o [] x = .ok ⟨d, []⟩) xs datas ∧
      r.data = .list datas) ∧ (¬ r.isOk → r.data = .none) := by
  rw [validateRecords, hi] at h
  obtain ⟨results, hr, h⟩ := bind_eq_ok.mp h
  have h := pure_eq_ok.mp h
  split at h
  · rename_i hnone
    cases h
    refine ⟨fun _ => ⟨_, List.forall₂_map_right_iff.mpr ?_, rfl⟩, fun hnot => absurd rfl hnot⟩
    have hnil := List.flatMap_eq_nil_iff.mp (List.isEmpty_iff.mp hnone)
    refine Lists.forall₂_trans (validateEach_eq_ok hr) (List.forall₂_same.mpr fun _ _ => rfl) ?_
    rintro x - s hs _ ⟨before, hx⟩ rfl
    obtain ⟨s', hs', hfound, hdata⟩ := validateRecord_before hx []
    obtain ⟨data, found⟩ := s'
    obtain rfl : found = [] := hfound.mpr (hnil s hs)
    obtain rfl : data = s.data := hdata (hnil s hs)
    exact hs'
  · rename_i hsome
    cases h
    exact ⟨fun hnone => absurd hnone hsome, fun _ => rfl⟩

/-! Members for IN. -/

/-- What is found wrong with a member, at its position behind the path of the condition. -/
def memberFindings (path : String) (j : Nat) (verdict : Verdict) : List Finding :=
  verdict.issues.map fun i => finding (path ++ "." ++ toString j) i.message

/-- The verdict of the adapter on a member, which has no issues just where the member is accepted. -/
def JudgedAs (f : Field) (y : Value) (verdict : Verdict) : Prop :=
  f.type.check f.rule y = .ok verdict ∧ (verdict.issues = [] ↔ Accepts f y)

theorem findings_of_checkMembers {path : String} {index : Nat} {ys : List Value}
    {found : List Finding} (h : checkMembers f path index ys = .ok found) : ∃ verdicts,
      List.Forall₂ (JudgedAs f) ys verdicts ∧
      found = (verdicts.mapIdx fun j => memberFindings path (index + j)).flatten := by
  induction ys generalizing index found with
  | nil =>
    cases h
    exact ⟨[], .nil, rfl⟩
  | cons y ys ih =>
    rw [checkMembers] at h
    obtain ⟨here, hh, h⟩ := bind_eq_ok.mp h
    obtain ⟨rest, hr, h⟩ := bind_eq_ok.mp h
    cases pure_eq_ok.mp h
    have hempty := checkAs_eq_ok hh
    obtain ⟨verdict, hv, hh⟩ := bind_eq_ok.mp hh
    cases pure_eq_ok.mp hh
    rw [List.map_eq_nil_iff] at hempty
    obtain ⟨verdicts, hverdicts, rfl⟩ := ih hr
    refine ⟨verdict :: verdicts, .cons ⟨hv, hempty⟩ hverdicts, ?_⟩
    simp only [List.mapIdx_cons, List.flatten_cons, Nat.add_zero, Nat.add_assoc, Nat.add_comm 1]
    rfl

theorem checkCondition_of_members {index : Nat} {k o w : Value} {ys : List Value}
    (hp : parts? x = some (k, o, w)) (hf : ModelOf.field? m k = some f)
    (ho : o.text?.bind Operator.ofText? = some .membership) (hi : w.items? = some ys)
    (hne : ys ≠ []) :
    checkCondition m index x = checkMembers f (toString index ++ "." ++ k.plain) 0 ys := by
  obtain ⟨y, rest, rfl⟩ := List.exists_cons_of_ne_nil hne
  rw [checkCondition_eq, hp]
  dsimp only
  rw [checkParts, hf]
  dsimp only
  rw [ho]
  dsimp only
  rw [hi]

/-- The findings of a condition with IN are those of the members, one group after the other. -/
theorem findings_of_members {k o w : Value} {ys : List Value} {r : Result}
    (hp : parts? x = some (k, o, w)) (hf : ModelOf.field? m k = some f)
    (ho : o.text?.bind Operator.ofText? = some .membership) (hi : w.items? = some ys) (hne : ys ≠ [])
    (h : validateFilter m (.list [x]) = .ok r) : ∃ verdicts, List.Forall₂ (JudgedAs f) ys verdicts ∧
      r.findings = (verdicts.mapIdx (memberFindings ("0." ++ k.plain))).flatten := by
  rw [validateFilter_eq rfl, each_cons, checkCondition_of_members hp hf ho hi hne] at h
  obtain ⟨groups, hg, h⟩ := bind_eq_ok.mp h
  cases pure_eq_ok.mp h
  obtain ⟨found, hfound, hg⟩ := bind_eq_ok.mp hg
  cases pure_eq_ok.mp hg
  obtain ⟨verdicts, hverdicts, rfl⟩ := findings_of_checkMembers hfound
  refine ⟨verdicts, hverdicts, ?_⟩
  have hzero : toString 0 ++ "." = "0." := rfl
  simp only [hzero, Nat.zero_add]
  exact List.append_nil _

/-- What is found wrong with lists. Each item of a list is judged as it is by itself, and what is found wrong
with it stands behind its position; members for IN have positions of their own. A list of conditions is
judged just where each of them can be checked, a batch just where each of its records can, so that an item
hides the findings of others only where nothing can be told of it: where an adapter neither takes nor
refuses a value, or where what is unknown cannot be written out. -/
structure ListsJudged (o : Overlay) : Prop where
  conditions : Composes (validateFilter o.model)
  records : Composes (validateRecords o)
  checked : ∀ v xs, v.items? = some xs →
    ((∃ r, validateFilter o.model v = .ok r) ↔ ∀ x ∈ xs, Checkable o.model x)
  judged : ∀ v xs, v.items? = some xs →
    ((∃ r, validateRecords o v = .ok r) ↔ ∀ x ∈ xs, ∃ s, validateRecord o [] x = .ok s)
  sound : ∀ v xs r, v.items? = some xs → validateRecords o v = .ok r →
    (r.isOk ↔ ∀ x ∈ xs, ∃ s, validateRecord o [] x = .ok s ∧ s.isOk)
  data : ∀ v xs r, v.items? = some xs → validateRecords o v = .ok r →
    (r.isOk → ∃ datas, List.Forall₂ (fun x d => validateRecord o [] x = .ok ⟨d, []⟩) xs datas ∧
      r.data = .list datas) ∧ (¬ r.isOk → r.data = .none)
  members : ∀ x k w ys f r operator, parts? x = some (k, operator, w) →
    ModelOf.field? o.model k = some f →
    operator.text?.bind Operator.ofText? = some .membership → w.items? = some ys → ys ≠ [] →
    validateFilter o.model (.list [x]) = .ok r → ∃ verdicts, List.Forall₂ (JudgedAs f) ys verdicts ∧
      r.findings = (verdicts.mapIdx (memberFindings ("0." ++ k.plain))).flatten
  applicable : ModelApplicable o.model → ∀ v xs, v.items? = some xs →
    (∀ x ∈ xs, ¬ Bare x ∧ ¬ Untellable o.model (.condition x)) → ∃ r, validateFilter o.model v = .ok r
  untold : o.Applicable → ∀ v e, validateRecords o v = .error e →
    ∃ xs, v.items? = some xs ∧ ∃ x ∈ xs, Untold o x e

theorem findings_compose (o : Overlay) : ListsJudged o where
  conditions := composes_validateFilter o.model
  records := composes_validateRecords o
  checked _ _ := exists_validateFilter
  judged _ _ := exists_validateRecords
  sound _ _ _ hi h := isOk_validateRecords hi h
  data _ _ _ hi h := data_validateRecords hi h
  members _ _ _ _ _ _ _ hp hf ho hi hne h := findings_of_members hp hf ho hi hne h
  applicable hm _ _ hi hall := (exists_validateFilter hi).mpr fun x hx =>
    ⟨(hall x hx).1, (hall x hx).2, fun _ _ _ _ _ hf y _ => exists_check hm (field?_eq_some hf).1 y⟩
  untold ho v e he := by
    obtain ⟨xs, hi, x, hx, hb⟩ := breaks_of_validateRecords he
    exact ⟨xs, hi, x, hx, untold_of_applicable ho hb⟩

/-- An unknown field in front, and behind it two members that are refused and an item that is no
condition. -/
theorem findings_compose_members :
    let m : Model := ⟨"User", .ignore, [⟨"id", .integer, { limits := [.greaterThan 0] }, none, none⟩]⟩
    let x : Value := .map [(.str "field", .str "zz"), (.str "operator", .str "="), (.str "value", .int 1)]
    let y : Value := .condition (.membership "id" (.list [.none, .int 2, .int 0])) {}
    ModelApplicable m ∧ ∃ r a, validateFilter m (.list ([x] ++ [y, .int 7])) = .ok r ∧
      r.findings = [⟨"0.field", "Unknown field: zz"⟩, ⟨"1.id.0", "Input should be a valid integer"⟩,
        ⟨"1.id.2", "Input should be greater than 0"⟩, ⟨"2", "Expected a condition"⟩] ∧
      validateFilter m (.list [y, .int 7]) = .ok a ∧ r.findings =
        [⟨"0.field", "Unknown field: zz"⟩] ++ a.findings.map (Finding.moved 1) := by
  intro m x y
  have hm : ModelApplicable m := ⟨rfl, trivial⟩
  obtain ⟨r, hr⟩ := (findings_compose m).applicable hm (.list ([x] ++ [y, .int 7])) _ rfl (by
    intro z hz
    refine ⟨?_, not_untellable fun k o w hp => ?_⟩
    · rintro ⟨name, given, rfl⟩
      simp [x, y] at hz
    · obtain rfl | rfl | rfl : z = x ∨ z = y ∨ z = .int 7 := by simpa using hz
      · have htext : x.hasText := by decide +kernel
        cases hp
        exact ⟨Value.hasText_get htext _, Value.hasText_get htext _⟩
      · cases hp
        exact ⟨rfl, rfl⟩
      · cases hp)
  have hitems : ∀ xs, (Value.list xs).items? = some xs := fun _ => rfl
  have happend := (findings_compose m).conditions.append (hitems ([x] ++ [y, .int 7])) (hitems [x])
    (hitems [y, .int 7])
  obtain ⟨b, hb, hbfound⟩ : ∃ b, validateFilter m (.list [x]) = .ok b ∧
      b.findings = [⟨"0.field", "Unknown field: zz"⟩] := exists_of_isOk (by decide +kernel)
  obtain ⟨a, ha, hafound⟩ : ∃ a, validateFilter m (.list [y, .int 7]) = .ok a ∧
      a.findings.map (Finding.moved 1) = [⟨"1.id.0", "Input should be a valid integer"⟩,
        ⟨"1.id.2", "Input should be greater than 0"⟩, ⟨"2", "Expected a condition"⟩] :=
    exists_of_isOk (by decide +kernel)
  rw [hr, hb, ha] at happend
  have happend : r.findings = b.findings ++ a.findings.map (Finding.moved 1) := Except.ok.inj happend
  refine ⟨hm, r, a, hr, ?_, ha, hbfound ▸ happend⟩
  rw [happend, hbfound, hafound]
  rfl

/-- A limit on the length that an adapter cannot apply to a number hides the unknown field in front. And an
unknown field or key that cannot be written out is not found. -/
theorem item_hidden :
    let m : Model := ⟨"M", .ignore, [⟨"n", .any, { limits := [.minLength 2] }, none, none⟩]⟩
    let x : Value := .map [(.str "field", .str "zz"), (.str "operator", .str "="), (.str "value", .int 1)]
    let y : Value := .map [(.str "field", .str "n"), (.str "operator", .str "="), (.str "value", .int 5)]
    let z : Value := .map [(.str "field", .tooLong), (.str "operator", .str "="), (.str "value", .int 1)]
    (∃ r, validateFilter m (.list [x]) = .ok r ∧ r.findings = [⟨"0.field", "Unknown field: zz"⟩]) ∧
    (∃ f, validateFilter m (.list [x, y]) = .error f ∧
      f.message = "Unable to apply constraint 'min_length' to supplied value 5") ∧
    (∃ f, validateFilter m (.list [x, z]) = .error f ∧ f.message = Numeral.tooManyDigits) ∧
    ∃ f, validateRecords { model := m } (.list [.map [(.str "n", .str "ab"), (.tooLong, .int 1)]]) = .error f ∧
      f.message = Numeral.tooManyDigits :=
  ⟨exists_of_isOk (by decide +kernel), exists_of_fault? (by decide +kernel),
    exists_of_fault? (by decide +kernel), exists_of_fault? (by decide +kernel)⟩

end Schema
end TableQuery
