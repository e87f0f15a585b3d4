import TableQuery.Proofs.Lists
import TableQuery.Proofs.Sql.Marks
import TableQuery.Proofs.Sql.Plain
import TableQuery.Proofs.Sql.Regular

/-! Statements in whose names nothing reads like a mark: these come out as they were laid out. -/

namespace TableQuery
namespace Identifier

variable {d : Dialect} {o cs : List Char}

theorem quoteChar_eq (d : Dialect) (c : Char) :
    quoteChar d c = [c] ∨ quoteChar d c = [c, c] := by
  unfold quoteChar
  split_ifs with h h'
  · exact .inr (by rw [h])
  · exact .inr (by rw [h'.1])
  · exact .inl rfl

theorem prefix_of_prefix_quoted (ho : ∀ c ∈ o, quoteChar d c = [c])
    (h : o <+: cs.flatMap (quoteChar d) ++ ['"']) : o <+: cs := by
  induction o generalizing cs with
  | nil => exact List.nil_prefix
  | cons a o ih =>
    have ha := ho a (List.mem_cons_self ..)
    cases cs with
    | nil =>
      obtain rfl := (List.cons_prefix_cons.mp h).1
      cases d <;> exact absurd ha (by decide)
    | cons c cs =>
      rw [List.flatMap_cons] at h
      rcases quoteChar_eq d c with hc | hc <;> rw [hc] at h
      · obtain ⟨rfl, ht⟩ := List.cons_prefix_cons.mp h
        exact List.cons_prefix_cons.mpr
          ⟨rfl, ih (fun e he => ho e (List.mem_cons_of_mem a he)) ht⟩
      · obtain ⟨rfl, -⟩ := List.cons_prefix_cons.mp h
        rw [ha] at hc
        cases hc

/-- Quoting doubles characters, and makes no opening that was not there. -/
theorem infix_of_infix_quoted (hne : o ≠ []) (ho : ∀ c ∈ o, quoteChar d c = [c])
    (h : o <:+: cs.flatMap (quoteChar d) ++ ['"']) : o <:+: cs := by
  obtain ⟨a, o, rfl⟩ := List.exists_cons_of_ne_nil hne
  have ha := ho a (List.mem_cons_self ..)
  induction cs with
  | nil =>
    obtain rfl := List.mem_singleton.mp (h.subset (List.mem_cons_self ..))
    cases d <;> exact absurd ha (by decide)
  | cons c cs ih =>
    rw [List.flatMap_cons] at h
    rcases quoteChar_eq d c with hc | hc <;> rw [hc] at h
    · rcases List.infix_cons_iff.mp h with h | h
      · refine (prefix_of_prefix_quoted (d := d) ho ?_).isInfix
        rwa [List.flatMap_cons, hc]
      · exact List.infix_cons (ih h)
    · have hac : a ≠ c := by
        rintro rfl
        rw [ha] at hc
        cases hc
      rcases List.infix_cons_iff.mp h with h | h
      · exact absurd (List.cons_prefix_cons.mp h).1 hac
      rcases List.infix_cons_iff.mp h with h | h
      · exact absurd (List.cons_prefix_cons.mp h).1 hac
      · exact List.infix_cons (ih h)

theorem not_infix_quote {name : String} (hne : o ≠ []) (ho : ∀ c ∈ o, quoteChar d c = [c])
    (h : ¬ o <:+: name.toList) : ¬ o <:+: (quote d name).toList := by
  intro hq
  rw [quote, String.toList_ofList, quoteChars, List.cons_append] at hq
  obtain ⟨a, o, rfl⟩ := List.exists_cons_of_ne_nil hne
  rcases List.infix_cons_iff.mp hq with hq | hq
  · obtain rfl := (List.cons_prefix_cons.mp hq).1
    have ha := ho _ (List.mem_cons_self ..)
    cases d <;> exact absurd ha (by decide)
  · exact h (infix_of_infix_quoted hne ho hq)

theorem getLast?_quote (d : Dialect) (name : String) :
    (quote d name).toList.getLast? = some '"' := by
  rw [quote, String.toList_ofList, quoteChars, List.getLast?_concat]

end Identifier

namespace Binding
open Placeholder Text

/-- A piece in which no mark but its own is read. -/
inductive Own (d : Dialect) : Named → Prop
  | text {s : String} (fixed : isFixed s) : Own d (.text s)
  | quoted {n : String} (value : d = .sqlite → ¬ valueStart <:+: n.toList)
    (members : ¬ membersStart <:+: n.toList) : Own d (.quoted n)
  | value {key x : String} {v : Value} {cast : Option Cast} (fit : Fit x) :
    Own d (.value key x v cast)
  | members {x : String} {vs : List Value} (fit : Fit x) (solid : Solid x.toList) :
    Own d (.members x vs)

theorem fixed_ne {s : String} (h : isFixed s) {c : Char} (hc : c ∈ s.toList) :
    c ≠ '%' ∧ c ≠ '_' ∧ c ≠ '"' ∧ c ≠ '?' := by
  have hs := List.all_eq_true.mp (Bool.and_eq_true_iff.mp h).2 c hc
  simpa [signs] using hs

theorem quiet_value?_fixed {s : String} (h : isFixed s) : Quiet value? s.toList :=
  quiet_of_forall_ne (fun _ => value?_opening) fun _ hc => (fixed_ne h hc).1

theorem quiet_members?_fixed {s : String} (h : isFixed s) : Quiet members? s.toList :=
  quiet_of_forall_ne (fun _ => members?_opening) fun _ hc => (fixed_ne h hc).2.1

theorem quiet_quote {d : Dialect} {reads : List Char → Option (Placeholder × List Char)}
    {o : List Char} {n : String} (ho : ∀ s, reads s ≠ none → o <+: s) (hne : o ≠ [])
    (hsame : ∀ c ∈ o, Identifier.quoteChar d c = [c]) (h : ¬ o <:+: n.toList) :
    Quiet reads (Identifier.quote d n).toList := by
  refine quiet_of_opening ho (Identifier.not_infix_quote hne hsame h) fun c hc hm => ?_
  rw [Identifier.getLast?_quote] at hc
  cases hc
  cases d <;> exact absurd (hsame _ hm) (by decide)

theorem quiet_members?_quote (d : Dialect) {n : String} (h : ¬ membersStart <:+: n.toList) :
    Quiet members? (Identifier.quote d n).toList :=
  quiet_quote (fun _ => members?_opening) (by decide)
    (by cases d <;> exact forall_of_all (by decide)) h

theorem quiet_value?_quote {n : String} (h : ¬ valueStart <:+: n.toList) :
    Quiet value? (Identifier.quote .sqlite n).toList :=
  quiet_quote (fun _ => value?_opening) (by decide) (forall_of_all (by decide)) h

/-- The mark of a value has no bracket that the mark of a list could begin with. -/
theorem quiet_members?_valueText {x : String} (h : Clear x.toList) :
    Quiet members? (valueText x).toList := by
  have hl : (valueText x).toList = '%' :: '(' :: x.toList ++ [')', 's'] := by
    simp [valueText, String.toList_append]
  rw [hl]
  refine quiet_of_opening (fun _ => members?_opening) (fun hin => ?_) fun c hc => ?_
  · have hm := hin.subset (show '[' ∈ membersStart by decide)
    simp only [List.cons_append, List.mem_cons, List.mem_append, List.not_mem_nil, or_false] at hm
    rcases hm with hm | hm | hm | hm | hm
    · exact absurd hm (by decide)
    · exact absurd hm (by decide)
    · exact h _ hm (by decide)
    · exact absurd hm (by decide)
    · exact absurd hm (by decide)
  · rw [List.getLast?_append] at hc
    cases hc
    decide

theorem quiet_members?_placeholder (d : Dialect) {x : String} (h : Clear x.toList)
    (cast : Option Cast) : Quiet members? (placeholder d x cast).toList := by
  cases d with
  | sqlite =>
    exact quiet_of_forall_ne (o := '_') (fun _ => members?_opening)
      (show ∀ c ∈ "?".toList, c ≠ '_' from forall_of_all (by decide))
  | postgresql =>
    rw [placeholder, String.toList_append]
    refine (quiet_members?_valueText h).append
      (quiet_of_forall_ne (o := '_') (fun _ => members?_opening) ?_)
    cases cast with
    | none => exact forall_of_all (by decide)
    | some c => cases c <;> exact forall_of_all (by decide)

/-! The first pass. -/

/-- What the first pass reads in a piece. -/
def marks : Named → List Placeholder
  | .text s => s.toList.map .char
  | .quoted n => (Identifier.quote .sqlite n).toList.map .char
  | .value _ x .. => [.value x.toList]
  | .members x _ => [.members x.toList none]

theorem scans_marked {q : Named} (h : Own .sqlite q) {rest : List Char} {ms : List Placeholder}
    (hr : Scans mark? .char rest ms) :
    Scans mark? .char ((marked .sqlite q).toList ++ rest) (marks q ++ ms) := by
  cases h with
  | text fixed => exact hr.quiet (quiet_mark? (quiet_value?_fixed fixed) (quiet_members?_fixed fixed))
  | quoted value members =>
    exact hr.quiet (quiet_mark? (quiet_value?_quote (value rfl)) (quiet_members?_quote _ members))
  | @value key x v cast fit =>
    have hl : (marked .sqlite (.value key x v cast)).toList ++ rest =
        '%' :: ('(' :: x.toList ++ ')' :: 's' :: rest) := by
      simp [marked, valueText, castText, String.toList_append]
    rw [hl]
    have hx : x.toList ≠ [] := fun h => fit.ne (String.toList_inj.mp h)
    have hread := value?_mark hx (fun h => fit.clear _ h (by decide)) rest
    refine hr.read ((congrArg (Option.or · _) hread).trans rfl) ?_
    simp only [List.length_append, List.length_cons]
    omega
  | @members x vs fit solid =>
    have hl : (marked .sqlite (.members x vs)).toList ++ rest =
        membersStart ++ x.toList ++ ']' :: rest := by
      simp [marked, membersText, String.toList_append]
    rw [hl]
    have hx : x.toList ≠ [] := fun h => fit.ne (String.toList_inj.mp h)
    have hread := members?_mark hx solid (fun h => fit.clear _ h (by decide)) rest
    refine hr.read hread ?_
    simp only [List.length_append, List.length_cons]
    omega

theorem scans_template {ps : List Named} (h : ∀ q ∈ ps, Own .sqlite q) :
    Scans mark? .char (template .sqlite ps).toList (ps.flatMap marks) := by
  rw [template, String.toList_join, List.flatMap_map]
  induction ps with
  | nil => exact .nil
  | cons q ps ih =>
    exact scans_marked (h q (List.mem_cons_self ..)) (ih fun p hp => h p (List.mem_cons_of_mem q hp))

theorem anonymous_chars (known : List String) (cs : List Char) :
    anonymous known (cs.map .char) = cs := by
  induction cs with
  | nil => rfl
  | cons c cs ih => exact congrArg (c :: ·) ih

theorem names_chars (known : List String) (cs : List Char) :
    Placeholder.names known (cs.map .char) = [] := by
  induction cs with
  | nil => rfl
  | cons c cs ih => exact ih

/-- The first pass replaces the marks of values, and finds every name in its place. -/
theorem anonymous_marks {known : List String} {ps : List Named}
    (hk : ∀ q ∈ ps, ∀ x ∈ q.name?, x ∈ known) :
    anonymous known (ps.flatMap marks) = (writtenAll .sqlite ps).toList ∧
    Placeholder.names known (ps.flatMap marks) = ps.filterMap (·.name?) := by
  rw [writtenAll, String.toList_join, List.flatMap_map]
  induction ps with
  | nil => exact ⟨rfl, rfl⟩
  | cons q ps ih =>
    obtain ⟨ha, hn⟩ := ih fun p hp => hk p (List.mem_cons_of_mem q hp)
    have hq : anonymous known (marks q) = (written .sqlite q).toList ∧
        Placeholder.names known (marks q) = q.name?.toList := by
      cases q with
      | text s => exact ⟨anonymous_chars known _, names_chars known _⟩
      | quoted n => exact ⟨anonymous_chars known _, names_chars known _⟩
      | value key x v cast =>
        have hx : x ∈ known := hk _ (List.mem_cons_self ..) x rfl
        constructor <;>
          simp [marks, anonymous, Placeholder.names, hx, written, placeholder, Named.name?]
      | members x vs =>
        constructor <;>
          simp [marks, anonymous, Placeholder.names, toChars, written, membersText, Named.name?,
            String.toList_append]
    constructor
    · rw [List.flatMap_cons, List.flatMap_cons, ← hq.1, ← ha]
      exact List.flatMap_append
    · rw [List.flatMap_cons, Placeholder.names, List.filterMap_append]
      change Placeholder.names known (marks q) ++ Placeholder.names known (ps.flatMap marks) = _
      rw [hq.2, hn]
      cases hx : q.name? <;> simp [hx]

/-- After the first pass every piece stands as it is, and the names are known in their order. -/
theorem settle_eq {d : Dialect} {ps : List Named} (h : d = .sqlite → ∀ q ∈ ps, Own d q) :
    settle d ps = (writtenAll d ps, ps.filterMap (·.name?)) := by
  cases d with
  | postgresql =>
    have hp : ∀ q, marked .postgresql q = written .postgresql q := by
      intro q
      cases q <;> rfl
    simp only [settle, template, writtenAll, funext hp]
  | sqlite =>
    have hk : ∀ q ∈ ps, ∀ x ∈ q.name?, x ∈ ps.filterMap (·.name?) :=
      fun q hq x hx => List.mem_filterMap.mpr ⟨q, hq, hx⟩
    obtain ⟨ha, hn⟩ := anonymous_marks hk
    simp only [settle, scan_eq (scans_template (h rfl)), ha, hn, String.ofList_toList]

/-! The second pass. -/

/-- What the second pass reads in a piece. -/
def memberMarks (d : Dialect) : Named → List Placeholder
  | .members x _ => [.members x.toList none]
  | q => (written d q).toList.map .char

/-- A piece with the text of its member list. -/
def filled (d : Dialect) (texts : List (String × String)) : Named → String
  | .members x _ => (texts.lookup x).getD ""
  | q => written d q

theorem scans_written {d : Dialect} {q : Named} (h : Own d q) {rest : List Char}
    {ms : List Placeholder} (hr : Scans members? .char rest ms) :
    Scans members? .char ((written d q).toList ++ rest) (memberMarks d q ++ ms) := by
  cases h with
  | text fixed => exact hr.quiet (quiet_members?_fixed fixed)
  | quoted _ members => exact hr.quiet (quiet_members?_quote d members)
  | value fit => exact hr.quiet (quiet_members?_placeholder d fit.clear _)
  | @members x vs fit solid =>
    have hl : (written d (.members x vs)).toList ++ rest =
        membersStart ++ x.toList ++ ']' :: rest := by
      simp [written, membersText, String.toList_append]
    rw [hl]
    have hx : x.toList ≠ [] := fun h => fit.ne (String.toList_inj.mp h)
    refine hr.read (members?_mark hx solid (fun h => fit.clear _ h (by decide)) rest) ?_
    simp only [List.length_append, List.length_cons]
    omega

theorem scans_writtenAll {d : Dialect} {ps : List Named} (h : ∀ q ∈ ps, Own d q) :
    Scans members? .char (writtenAll d ps).toList (ps.flatMap (memberMarks d)) := by
  rw [writtenAll, String.toList_join, List.flatMap_map]
  induction ps with
  | nil => exact .nil
  | cons q ps ih =>
    exact scans_written (h q (List.mem_cons_self ..)) (ih fun p hp => h p (List.mem_cons_of_mem q hp))

theorem join_append (as bs : List String) :
    String.join (as ++ bs) = String.join as ++ String.join bs := by
  rw [← String.toList_inj]
  simp only [String.toList_append, String.toList_join, List.flatMap_append]

theorem join_unfold_chars {texts : List (String × String)} {cs : List Char} {parts : List String}
    (h : (cs.map Placeholder.char).mapM (unfoldMark texts) = .ok parts) :
    String.join parts = String.ofList cs := by
  induction cs generalizing parts with
  | nil =>
    cases h
    rfl
  | cons c cs ih =>
    obtain ⟨p, ps, hp, hps, rfl⟩ := List.forall₂_cons_left_iff.mp (Outcome.mapM_eq_ok.mp h)
    cases hp
    have := congrArg String.toList (ih (Outcome.mapM_eq_ok.mpr hps))
    rw [← String.toList_inj]
    simpa [String.toList_join, toChars] using this

theorem join_unfold {d : Dialect} {texts : List (String × String)} {q : Named}
    {parts : List String} (h : (memberMarks d q).mapM (unfoldMark texts) = .ok parts) :
    String.join parts = filled d texts q := by
  cases q with
  | members x vs =>
    obtain ⟨p, ps, hp, hps, rfl⟩ := List.forall₂_cons_left_iff.mp (Outcome.mapM_eq_ok.mp h)
    cases hps
    simp only [unfoldMark, String.ofList_toList] at hp
    cases hx : texts.lookup x with
    | none =>
      rw [hx] at hp
      cases hp
    | some t =>
      rw [hx] at hp
      cases hp
      simp [filled, hx, String.join]
  | _ => simpa [filled] using join_unfold_chars h

theorem join_unfold_all {d : Dialect} {texts : List (String × String)} {ps : List Named}
    {parts : List String} (h : (ps.flatMap (memberMarks d)).mapM (unfoldMark texts) = .ok parts) :
    String.join parts = String.join (ps.map (filled d texts)) := by
  induction ps generalizing parts with
  | nil =>
    cases h
    rfl
  | cons q ps ih =>
    rw [List.flatMap_cons, List.mapM_append] at h
    obtain ⟨as, has, h⟩ := Outcome.bind_eq_ok.mp h
    obtain ⟨bs, hbs, h⟩ := Outcome.bind_eq_ok.mp h
    cases Outcome.pure_eq_ok.mp h
    rw [join_append, join_unfold has, ih hbs, List.map_cons]
    exact (join_append [_] _).symm

/-- After the second pass the member lists are written out, and nothing else has changed. -/
theorem unfold_eq {d : Dialect} {texts : List (String × String)} {ps : List Named} {sql : String}
    (h : ∀ q ∈ ps, Own d q) (hu : unfold texts (writtenAll d ps) = .ok sql) :
    sql = String.join (ps.map (filled d texts)) := by
  obtain ⟨parts, hparts, hu⟩ := Outcome.bind_eq_ok.mp hu
  cases Outcome.pure_eq_ok.mp hu
  rw [scanMembers_eq (scans_writtenAll h)] at hparts
  exact join_unfold_all hparts

/-! Member lists by name, and in their places. -/

def Named.members? : Named → Option (List Value)
  | .members _ vs => some vs
  | _ => none

theorem memberLists_sublist (ps : List Named) :
    ((memberLists ps).map Prod.fst).Sublist (ps.filterMap (·.name?)) := by
  induction ps with
  | nil => exact .slnil
  | cons q ps ih =>
    cases q with
    | text s => exact ih
    | quoted n => exact ih
    | value key x v cast => exact ih.cons x
    | members x vs => exact ih.cons_cons x

theorem lookup_memberLists {ps : List Named} (hn : (ps.filterMap (·.name?)).Nodup) {q : Named}
    (hq : q ∈ ps) {x : String} (hx : x ∈ q.name?) : (memberLists ps).lookup x = q.members? := by
  induction ps with
  | nil => cases hq
  | cons p ps ih =>
    rcases List.mem_cons.mp hq with rfl | hm
    · cases q with
      | text s => cases hx
      | quoted n => cases hx
      | value key y v cast =>
        cases hx
        refine Lists.lookup_of_not_mem fun hm => ?_
        exact (List.nodup_cons.mp hn).1 ((memberLists_sublist ps).subset hm)
      | members y vs =>
        cases hx
        exact List.lookup_cons_self
    · cases p with
      | text s => exact ih hn hm
      | quoted n => exact ih hn hm
      | value key y v cast => exact ih (List.nodup_cons.mp hn).2 hm
      | members y vs =>
        obtain ⟨hy, hn⟩ := List.nodup_cons.mp hn
        have hne : x ≠ y := by
          rintro rfl
          exact hy (List.mem_filterMap.mpr ⟨q, hm, hx⟩)
        exact (Lists.lookup_cons_of_ne hne).trans (ih hn hm)

/-- Pieces, each as a block of its own. -/
def blocks (ps : List Named) : List (List Named) := ps.map fun q => [q]

theorem flatten_blocks (ps : List Named) : (blocks ps).flatten = ps :=
  List.flatMap_def.symm.trans (List.flatMap_singleton' ps)

theorem spreadAll_blocks (d : Dialect) (taken : List String) {ps : List Named}
    (h : memberLists ps = []) : spreadAll d taken ps = .ok (blocks ps, []) := by
  induction ps with
  | nil => rfl
  | cons q ps ih =>
    cases q with
    | members x vs => cases h
    | _ => exact Outcome.bind_eq_ok.mpr ⟨_, ih h, rfl⟩

theorem filled_of_ne {d : Dialect} {texts : List (String × String)} {x t : String} {q : Named}
    (h : q.name? ≠ some x) : filled d ((x, t) :: texts) q = filled d texts q := by
  cases q with
  | members y vs =>
    have hne : y ≠ x := fun he => h (congrArg some he)
    rw [filled, filled, Lists.lookup_cons_of_ne hne]
  | _ => rfl

/-- Lists written out by name, each when its name first comes up, under names that are still free. A name
that has come up before, or has no list, is passed over. -/
inductive Expands (d : Dialect) (known : List String) (lists : List (String × List Value)) :
    (taken done names : List String) → List (String × String) → List (String × Value) → Prop
  | nil (taken done : List String) : Expands d known lists taken done [] [] []
  | passed {taken done names : List String} {x : String} {texts : List (String × String)}
    {params : List (String × Value)} (listed : x ∈ known) (pass : x ∈ done ∨ lists.lookup x = none)
    (rest : Expands d known lists taken done names texts params) :
    Expands d known lists taken done (x :: names) texts params
  | list {taken taken' done names : List String} {x : String} {vs : List Value} {block : List Named}
    {texts : List (String × String)} {here params : List (String × Value)} (listed : x ∈ known)
    (fresh : x ∉ done) (found : lists.lookup x = some vs)
    (expanded : expand d taken x vs = .ok (block, here, taken'))
    (rest : Expands d known lists taken' (x :: done) names texts params) :
    Expands d known lists taken done (x :: names) ((x, writtenAll d block) :: texts) (here ++ params)

theorem expandAll_eq_ok {d : Dialect} {known taken done names : List String}
    {lists : List (String × List Value)} {texts : List (String × String)}
    {params : List (String × Value)} :
    expandAll d known lists taken done names = .ok (texts, params) ↔
      Expands d known lists taken done names texts params := by
  constructor
  · intro h
    induction names generalizing taken done texts params with
    | nil =>
      cases h
      exact .nil taken done
    | cons x names ih =>
      rw [expandAll] at h
      split at h
      · cases h
      · rename_i hk
        have hk : x ∈ known := by simpa using hk
        split at h
        · rename_i hd
          exact .passed hk (.inl (List.contains_iff_mem.mp hd)) (ih h)
        · rename_i hd
          split at h
          · rename_i hx
            exact .passed hk (.inr hx) (ih h)
          · rename_i vs hx
            obtain ⟨⟨block, here, taken'⟩, hb, h⟩ := Outcome.bind_eq_ok.mp h
            obtain ⟨⟨texts, params⟩, hm, h⟩ := Outcome.bind_eq_ok.mp h
            cases Outcome.pure_eq_ok.mp h
            exact .list hk (fun hm => hd (List.contains_iff_mem.mpr hm)) hx hb (ih hm)
  · intro h
    induction h with
    | nil => rfl
    | passed listed pass _ ih =>
      rw [expandAll]
      rcases pass with hd | hx
      · simpa [listed, hd] using ih
      · simpa [listed, hx] using ih
    | list listed fresh found expanded _ ih =>
      rw [expandAll, found]
      simp only [List.contains_eq_mem, listed, fresh, decide_true, decide_false, Bool.not_true,
        Bool.false_eq_true, if_false]
      exact Outcome.bind_eq_ok.mpr ⟨_, expanded, Outcome.bind_eq_ok.mpr ⟨_, ih, rfl⟩⟩

theorem write_eq_ok {d : Dialect} {taken : List String} {ps : List Named} {r : Rendered}
    (h : write d taken ps = .ok r) :
    (memberLists ps = [] ∧ r = ⟨(settle d ps).1, values false ps⟩) ∨
    (memberLists ps ≠ [] ∧ ∃ texts members sql,
      Expands d (ps.filterMap (·.name?)) (memberLists ps) taken [] (settle d ps).2 texts members ∧
      unfold texts (settle d ps).1 = .ok sql ∧ r = ⟨sql, values true ps ++ members⟩) := by
  by_cases hl : memberLists ps = []
  · refine .inl ⟨hl, ?_⟩
    simp only [write, hl, List.isEmpty_nil, if_true] at h
    cases h
    rfl
  · refine .inr ⟨hl, ?_⟩
    have hne : (memberLists ps).isEmpty = false := by simpa using hl
    simp only [write, hne, Bool.false_eq_true, if_false] at h
    obtain ⟨⟨texts, members⟩, ht, h⟩ := Outcome.bind_eq_ok.mp h
    obtain ⟨sql, hs, h⟩ := Outcome.bind_eq_ok.mp h
    cases Outcome.pure_eq_ok.mp h
    exact ⟨texts, members, sql, expandAll_eq_ok.mp ht, hs, rfl⟩

/-- Writing the lists out by name, each when it first comes up, is writing them out in their places. -/
theorem Expands.spread {d : Dialect} {known : List String} {lists : List (String × List Value)}
    {ps : List Named} {taken done : List String} {texts : List (String × String)}
    {params : List (String × Value)} (hn : (ps.filterMap (·.name?)).Nodup)
    (hd : ∀ x ∈ ps.filterMap (·.name?), x ∉ done)
    (hl : ∀ q ∈ ps, ∀ x ∈ q.name?, lists.lookup x = q.members?)
    (h : Expands d known lists taken done (ps.filterMap (·.name?)) texts params) :
    ∃ blocks, spreadAll d taken ps = .ok (blocks, params) ∧
      writtenAll d blocks.flatten = String.join (ps.map (filled d texts)) := by
  -- Each name comes up once, so that no piece to come has one of those that are done.
  induction ps generalizing taken done texts params with
  | nil =>
    cases h
    exact ⟨[], rfl, rfl⟩
  | cons q ps ih =>
    have hl' : ∀ p ∈ ps, ∀ x ∈ p.name?, lists.lookup x = p.members? :=
      fun p hp => hl p (List.mem_cons_of_mem q hp)
    have hjoin : ∀ (texts : List (String × String)) (bs : List Named),
        writtenAll d bs = String.join (ps.map (filled d texts)) → ∀ block : List Named,
        writtenAll d block = filled d texts q →
        writtenAll d (block ++ bs) = String.join ((q :: ps).map (filled d texts)) := by
      intro texts bs hbs block hb
      rw [writtenAll, List.map_append, join_append, List.map_cons]
      change writtenAll d block ++ writtenAll d bs = _
      rw [hb, hbs]
      exact (join_append [_] _).symm
    cases q with
    | text s =>
      obtain ⟨blocks, hb, hw⟩ := ih hn hd hl' h
      exact ⟨[.text s] :: blocks, Outcome.bind_eq_ok.mpr ⟨_, hb, rfl⟩,
        hjoin texts _ hw [.text s] (by simp [writtenAll, filled, String.join])⟩
    | quoted n =>
      obtain ⟨blocks, hb, hw⟩ := ih hn hd hl' h
      exact ⟨[.quoted n] :: blocks, Outcome.bind_eq_ok.mpr ⟨_, hb, rfl⟩,
        hjoin texts _ hw [.quoted n] (by simp [writtenAll, filled, String.join])⟩
    | value key x v cast =>
      have hx := List.mem_cons_self (a := x) (l := ps.filterMap (·.name?))
      have hlx := hl _ (List.mem_cons_self ..) x rfl
      change Expands d known lists taken done (x :: ps.filterMap (·.name?)) _ _ at h
      cases h with
      | list _ _ found => cases hlx.symm.trans found
      | passed _ _ rest =>
        obtain ⟨blocks, hb, hw⟩ := ih (List.nodup_cons.mp hn).2
          (fun y hy => hd y (List.mem_cons_of_mem x hy)) hl' rest
        exact ⟨[.value key x v cast] :: blocks, Outcome.bind_eq_ok.mpr ⟨_, hb, rfl⟩,
          hjoin texts _ hw [.value key x v cast] (by simp [writtenAll, filled, String.join])⟩
    | members x vs =>
      have hx := List.mem_cons_self (a := x) (l := ps.filterMap (·.name?))
      have hlx := hl _ (List.mem_cons_self ..) x rfl
      change Expands d known lists taken done (x :: ps.filterMap (·.name?)) _ _ at h
      cases h with
      | passed _ pass =>
        rcases pass with hdone | hnone
        · exact absurd hdone (hd x hx)
        · cases hlx.symm.trans hnone
      | @list _ taken' _ _ _ _ block texts here params _ _ found expanded rest =>
        cases hlx.symm.trans found
        obtain ⟨hxn, hn⟩ := List.nodup_cons.mp hn
        have hd' : ∀ y ∈ ps.filterMap (·.name?), y ∉ x :: done := by
          intro y hy hm
          rcases List.mem_cons.mp hm with rfl | hm
          · exact hxn hy
          · exact hd y (List.mem_cons_of_mem x hy) hm
        obtain ⟨blocks, hb, hw⟩ := ih hn hd' hl' rest
        refine ⟨block :: blocks, Outcome.bind_eq_ok.mpr ⟨_, expanded,
          Outcome.bind_eq_ok.mpr ⟨_, hb, rfl⟩⟩, hjoin _ _ ?_ block ?_⟩
        · -- The name of this list is that of no piece behind it.
          rw [hw]
          refine congrArg String.join (List.map_congr_left fun q hq => (filled_of_ne ?_).symm)
          exact fun hqx => hxn (List.mem_filterMap.mpr ⟨q, hq, hqx⟩)
        · simp [filled]

end Binding

namespace Layout
open Binding Placeholder

def quotedNames (l : Layout) : List String :=
  l.filterMap fun
    | .quoted n => some n
    | _ => none

/-- What the member lists are counted under. -/
def listBases (l : Layout) : List String :=
  l.filterMap fun
    | .slot (.members base _) => some base
    | _ => none

/-- Where a pass goes over the finished text, nothing in a name reads like a mark that it replaces,
and the marks of the member lists are read to their ends. -/
structure Legible (d : Dialect) (l : Layout) : Prop where
  value : d = .sqlite → ∀ n ∈ l.quotedNames, ¬ valueStart <:+: n.toList
  members : d = .sqlite ∨ l.listBases ≠ [] → ∀ n ∈ l.quotedNames, ¬ membersStart <:+: n.toList
  solid : ∀ base ∈ l.listBases, Solid base.toList

instance (d : Dialect) (l : Layout) : Decidable (Legible d l) :=
  decidable_of_iff ((d = .sqlite → ∀ n ∈ l.quotedNames, ¬ valueStart <:+: n.toList) ∧
    (d = .sqlite ∨ l.listBases ≠ [] → ∀ n ∈ l.quotedNames, ¬ membersStart <:+: n.toList) ∧
    ∀ base ∈ l.listBases, Solid base.toList)
    ⟨fun h => ⟨h.1, h.2.1, h.2.2⟩, fun h => ⟨h.value, h.members, h.solid⟩⟩

variable {d : Dialect} {l : Layout}

theorem mem_quotedNames {n : String} (h : .quoted n ∈ l) : n ∈ l.quotedNames :=
  List.mem_filterMap.mpr ⟨_, h, rfl⟩

theorem mem_listBases {base : String} {vs : List Value} (h : .slot (.members base vs) ∈ l) :
    base ∈ l.listBases :=
  List.mem_filterMap.mpr ⟨_, h, rfl⟩

theorem Legible.own (h : l.Legible d) (hr : l.Regular) (hm : d = .sqlite ∨ l.listBases ≠ [])
    {ps : List Named} (hl : List.Forall₂ Labels l ps) : ∀ q ∈ ps, Own d q := by
  intro q hq
  obtain ⟨p, hp, hpq⟩ := Lists.exists_of_mem_right hl hq
  have hreg := hr.pieces p hp
  cases hpq with
  | text s => exact .text hreg
  | quoted n =>
    have hn := mem_quotedNames hp
    exact .quoted (fun hd => h.value hd n hn) (h.members hm n hn)
  | cell v fit => exact .value (fit hreg)
  | operand v cast fit => exact .value fit
  | members vs fit solid => exact .members fit (solid (h.solid _ (mem_listBases hp)))

theorem listBases_ne_nil {ps : List Named} (hl : List.Forall₂ Labels l ps)
    (h : memberLists ps ≠ []) : l.listBases ≠ [] := by
  obtain ⟨⟨x, vs⟩, hx⟩ := List.exists_mem_of_ne_nil _ h
  obtain ⟨q, hq, hqx⟩ := List.mem_filterMap.mp hx
  obtain ⟨p, hp, hpq⟩ := Lists.exists_of_mem_right hl hq
  cases hpq with
  | members vs fit solid => exact List.ne_nil_of_mem (mem_listBases hp)
  | _ => cases hqx

/-- Where no name can be mistaken, what comes out is what was laid out. -/
theorem plain_of_legible {r : Rendered} (h : l.Legible d) (hreg : l.Regular)
    (hr : l.render d = .ok r) : l.plain d = .ok r := by
  obtain ⟨⟨ps, n⟩, hps, hr⟩ := Outcome.bind_eq_ok.mp hr
  obtain ⟨hl, ht, hnd⟩ := nameAll_eq_ok hps List.nodup_nil
  have hn : (ps.filterMap (·.name?)).Nodup := by
    rw [ht, List.append_nil] at hnd
    exact List.nodup_reverse.mp hnd
  have hsettle : settle d ps = (writtenAll d ps, ps.filterMap (·.name?)) :=
    settle_eq fun hd => hd ▸ h.own hreg (.inl hd) hl
  have hplain : ∀ {blocks : List (List Named)} {ms : List (String × Value)},
      spreadAll d n.taken ps = .ok (blocks, ms) → l.plain d =
        .ok ⟨writtenAll d blocks.flatten, values (!(memberLists ps).isEmpty) ps ++ ms⟩ :=
    fun hb => Outcome.bind_eq_ok.mpr ⟨_, hps, Outcome.bind_eq_ok.mpr ⟨_, hb, rfl⟩⟩
  rcases write_eq_ok hr with ⟨hlists, rfl⟩ | ⟨hlists, texts, ms, sql, htexts, hsql, rfl⟩
  · rw [hsettle, hplain (spreadAll_blocks d n.taken hlists), flatten_blocks, hlists,
      List.append_nil]
    rfl
  · rw [hsettle] at htexts hsql
    have hown := h.own hreg (.inr (listBases_ne_nil hl hlists)) hl
    obtain ⟨blocks, hb, hw⟩ := htexts.spread hn (by simp) fun q hq x hx => lookup_memberLists hn hq hx
    have hne : (memberLists ps).isEmpty = false := by simpa using hlists
    rw [hplain hb, hw, ← unfold_eq hown hsql, hne]
    rfl

end Layout

end TableQuery
