import TableQuery.Proofs.Query.Inserted
import TableQuery.Proofs.Query.Strict
import TableQuery.Proofs.Sql.Clause

/-! What a statement works on: the names that a table's name is cut into, and their place in the text. -/

namespace TableQuery

namespace Text

theorem trimChars_eq_nil {cs : List Char} : trimChars cs = [] ↔ ∀ c ∈ cs, isBlank c = true := by
  have hstrip : trimChars cs = (cs.dropWhile isBlank).rdropWhile isBlank := rfl
  rw [hstrip, List.rdropWhile_eq_nil_iff]
  constructor
  · intro h
    rw [← List.dropWhile_eq_nil_iff]
    by_contra hne
    have hhead := List.head_mem hne
    have := List.head_dropWhile_not isBlank hne
    rw [h _ hhead] at this
    cases this
  · exact fun h c hc => h c ((List.dropWhile_sublist _).mem hc)

theorem trim_eq_empty {s : String} : trim s = "" ↔ ∀ c ∈ s.toList, isBlank c = true := by
  rw [← trimChars_eq_nil, trim, ← String.toList_inj, String.toList_ofList]
  rfl

/-- What a trimmed text begins with is no blank. -/
theorem trim_ne_empty_of_prefix {n a b : String} (h : trim n = n) (hn : n = a ++ b) (ha : a ≠ "") :
    trim a ≠ "" := by
  obtain ⟨c, cs, hc⟩ := List.exists_cons_of_ne_nil fun h => ha (String.toList_inj.mp h)
  have hlist : n.toList = c :: (cs ++ b.toList) := by
    rw [hn, String.toList_append, hc, List.cons_append]
  have hstrip : ((n.toList).dropWhile isBlank).rdropWhile isBlank = n.toList := by
    have := congrArg String.toList h
    rwa [trim, String.toList_ofList] at this
  have hdark : isBlank c = false := by
    by_contra hblank
    rw [Bool.not_eq_false] at hblank
    have hlen := congrArg List.length hstrip
    have hle := (List.rdropWhile_prefix isBlank (n.toList.dropWhile isBlank)).length_le
    have hless := (List.dropWhile_sublist isBlank (l := cs ++ b.toList)).length_le
    rw [hlen, hlist, List.dropWhile_cons_of_pos hblank, List.length_cons] at hle
    omega
  intro he
  have := trim_eq_empty.mp he c (hc ▸ List.mem_cons_self)
  rw [hdark] at this
  cases this

end Text

namespace Target

/-- The names that a target is written with, in their order. -/
def identifiers (t : Target) : List String := t.schema.toList ++ [t.table]

variable {n a b : String}

theorem identifiers_undotted (qualified : Bool) (h : '.' ∉ n.toList) :
    (ofName qualified n).identifiers = [n] := by
  have hdrop : n.toList.dropWhile (· != '.') = [] := by
    rw [List.dropWhile_eq_nil_iff]
    intro c hc
    simpa using fun he : c = '.' => h (he ▸ hc)
  unfold ofName
  dsimp only
  rw [hdrop]
  cases qualified <;> rfl

/-- A dotted name is cut at its first dot, and an empty part in front of it is left out. -/
theorem ofName_dotted (hn : n = a ++ "." ++ b) (ha : '.' ∉ a.toList) :
    ofName true n = ⟨if a = "" then none else some (Text.trim a), Text.trim b⟩ := by
  have hp : ∀ c ∈ a.toList, (c != '.') = true := by
    intro c hc
    simpa using fun he : c = '.' => ha (he ▸ hc)
  have hlist : n.toList = a.toList ++ '.' :: b.toList := by
    rw [hn, String.toList_append, String.toList_append, List.append_assoc]
    rfl
  have hdrop : n.toList.dropWhile (· != '.') = '.' :: b.toList := by
    rw [hlist, List.dropWhile_append_of_pos hp]
    simp
  have htake : n.toList.takeWhile (· != '.') = a.toList := by
    rw [hlist, List.takeWhile_append_of_pos hp]
    simp
  unfold ofName
  dsimp only
  rw [hdrop, htake]
  by_cases he : a = ""
  · subst he
    rfl
  · have hne : a.toList.isEmpty = false := by
      rw [List.isEmpty_eq_false_iff]
      exact fun h => he (String.toList_inj.mp h)
    simp [he, hne, Text.trim]

/-- A name with a dot is what stands before the first one, the dot, and what stands behind it. -/
theorem exists_cut (h : '.' ∈ n.toList) : ∃ a b, n = a ++ "." ++ b ∧ '.' ∉ a.toList := by
  obtain ⟨as, bs, hn, has⟩ := List.eq_append_cons_of_mem h
  refine ⟨String.ofList as, String.ofList bs, ?_, by rwa [String.toList_ofList]⟩
  rw [← String.toList_inj, hn]
  simp

end Target
namespace Naming

/-- A name of which no part around its first dot is blank. -/
def Whole (n : String) : Prop :=
  ∀ a b, n = a ++ "." ++ b → '.' ∉ a.toList → a ≠ "" ∧ Text.trim b ≠ ""

theorem trim_ne_empty_of_isIdentifier {b : String} (h : isIdentifier b.toList = true) :
    Text.trim b ≠ "" := by
  intro he
  have hblank := Text.trim_eq_empty.mp he
  cases hb : b.toList with
  | nil =>
    rw [hb] at h
    cases h
  | cons c cs =>
    rw [hb] at h hblank
    have hword := isWord_of_isIdentifier h c List.mem_cons_self
    have hdark := hblank c List.mem_cons_self
    rw [hword.dark] at hdark
    cases hdark

/-- Strict rules take no name with a blank part. -/
theorem whole_of_strict {rules : Naming} {v : Value} {n : String} (hs : rules.strict = true)
    (h : rules.name? v = some n) : Whole n := by
  intro a b hn ha
  obtain ⟨s, -, haccepts, rfl⟩ := name?_eq_some.mp h
  have hlist : Text.trimChars s.toList = a.toList ++ '.' :: b.toList := by
    have := congrArg String.toList hn
    rw [Text.trim, String.toList_ofList] at this
    rw [this]
    simp
  have hp : ∀ c ∈ a.toList, (c != '.') = true := by
    intro c hc
    simpa using fun he : c = '.' => ha (he ▸ hc)
  have hcases := (Bool.and_eq_true_iff.mp haccepts).2
  simp only [hs, Bool.not_true, Bool.false_or, Bool.or_eq_true, Bool.and_eq_true, hlist] at hcases
  rcases hcases with hid | ⟨-, hq⟩
  · have hdot := isWord_of_isIdentifier hid '.' (by simp)
    exact absurd hdot (by decide)
  · rw [isQualified, List.dropWhile_append_of_pos hp, List.takeWhile_append_of_pos hp] at hq
    simp only [bne_self_eq_false, Bool.false_eq_true, not_false_eq_true, List.dropWhile_cons_of_neg,
      List.takeWhile_cons_of_neg, List.append_nil, Bool.and_eq_true] at hq
    refine ⟨?_, trim_ne_empty_of_isIdentifier hq.2⟩
    rintro rfl
    exact absurd hq.1 (by decide)

end Naming

namespace Statement
open Layout Lexeme Reading

/-- The words in front of what a statement works on. -/
def targetWord : Statement → String
  | select .. | count .. => "FROM "
  | insert .. | insertMany .. => "INSERT INTO "
  | update .. => "UPDATE "
  | delete .. => "DELETE FROM "

variable {d : Dialect}

/-- Behind the target stands no dot, but the words of another part, or nothing. -/
theorem word?_dot_ofLayout (leads : List String) {l : Layout}
    (h : l = [] ∨ ∃ s ∈ leads, ∃ m, l = .text s :: m) (hd : leads.all (differ ".") = true) :
    word? "." (ofLayout d l) = none := by
  have hbegins : Begins leads (ofLayout d l) := by
    rcases h with rfl | ⟨s, hs, m, rfl⟩
    · exact .inl rfl
    · exact .inr ⟨s, hs, ofLayout d m, ofLayout_cons d _ m⟩
  exact hbegins.word? (by decide) hd

theorem word?_dot_filter (st : Statement) {before : String} (f : Filter)
    (hb : before ∈ [" \nWHERE ", " WHERE "]) :
    word? "." (ofLayout d (Layout.filter d before f ++ st.tail d)) = none := by
  refine word?_dot_ofLayout ([" \nWHERE ", " WHERE "] ++ ends) ?_ (by decide)
  unfold Layout.filter
  split
  · rw [List.nil_append]
    refine (tail_begins d st).imp_right ?_
    rintro ⟨s, hs, l, hl⟩
    exact ⟨s, List.mem_append_right _ hs, l, hl⟩
  · exact .inr ⟨before, List.mem_append_left _ hb, _, rfl⟩

theorem columns_ne (d : Dialect) (c : Columns) : ∀ x ∈ ofColumns c, x ≠ .char 'F' := by
  rw [← ofLayout_columns d]
  intro x hx
  obtain ⟨p, hp, hx⟩ := List.mem_flatMap.mp hx
  have htext : ∀ s, s ∈ ["*", ", "] → ∀ x ∈ ofPiece d (.text s), x ≠ .char 'F' := by
    intro s hs
    have hall : ∀ s ∈ ["*", ", "], ∀ x ∈ chars s, x ≠ .char 'F' := by decide
    exact hall s hs
  have hpieces : ∀ p ∈ columns c, ∀ x ∈ ofPiece d p, x ≠ .char 'F' := by
    cases c with
    | all => exact List.forall_mem_singleton.mpr (htext "*" (by decide))
    | named ns =>
      refine forall_join (htext ", " (by decide)) fun l hl => ?_
      obtain ⟨n, -, rfl⟩ := List.mem_map.mp hl
      refine List.forall_mem_singleton.mpr fun x hx => ?_
      rw [List.mem_singleton.mp hx]
      simp
  exact hpieces p hp x hx

/-- The first of those words that stand in the text lead in the target. -/
theorem ofLayout_around (d : Dialect) (st : Statement) : ∃ before behind,
    ofLayout d (ofStatement d st) =
      before ++ (chars st.targetWord ++ (ofTarget st.target ++ behind)) ∧
    IsFixed before ∧ word? "." behind = none ∧
    ∀ ls, around? st.targetWord (before ++ (chars st.targetWord ++ ls)) = some (before, ls) := by
  have hfirst : ∀ {s : String} {c : Char} (cs : List Char), s.toList = c :: cs → ∀ ls,
      around? s ([] ++ (chars s ++ ls)) = some ([], ls) :=
    fun cs hs ls => around?_of_ne cs hs fun _ hx => absurd hx List.not_mem_nil
  have hinsert : ∀ t ns l, ∃ behind, ofLayout d (insertInto t ns ++ l) =
      [] ++ (chars "INSERT INTO " ++ (ofTarget t ++ behind)) ∧ word? "." behind = none := by
    intro t ns l
    refine ⟨ofLayout d (.text " (" :: (names ns ++ .text ") VALUES " :: l)), ?_,
      word?_dot_ofLayout [" ("] (.inr ⟨_, List.mem_singleton_self _, _, rfl⟩) (by decide)⟩
    simp only [insertInto, ofLayout_append, ofLayout_cons, ofLayout_target, List.append_assoc,
      List.cons_append, List.nil_append]
    rfl
  cases st with
  | select c t f o take skip =>
    refine ⟨chars "SELECT " ++ (ofColumns c ++ chars " \n"),
      ofLayout d (Layout.filter d " \nWHERE " f ++ (select c t f o take skip).tail d), ?_,
      (IsFixed.chars _).append ((isFixed_ofColumns c).append (.chars _)),
      word?_dot_filter _ f (by decide), fun ls => ?_⟩
    · have hfrom : chars " \nFROM " = chars " \n" ++ chars "FROM " := rfl
      simp only [ofStatement, tail, ofLayout_append, ofLayout_cons, ofPiece, ofLayout_columns,
        ofLayout_target, hfrom, List.append_assoc, List.cons_append]
      rfl
    · -- No lexeme in front of the word begins as it does.
      refine around?_of_ne (s := "FROM ") "ROM ".toList rfl fun x hx => ?_
      rcases List.mem_append.mp hx with hx | hx
      · exact (by decide : ∀ x ∈ chars "SELECT ", x ≠ .char 'F') x hx
      rcases List.mem_append.mp hx with hx | hx
      · exact columns_ne d c x hx
      · exact (by decide : ∀ x ∈ chars " \n", x ≠ .char 'F') x hx
  | count t f =>
    refine ⟨chars "SELECT count(*) AS count \n",
      ofLayout d (Layout.filter d " \nWHERE " f ++ (count t f).tail d), ?_, .chars _,
      word?_dot_filter _ f (by decide), fun ls => around?_of_ne (s := "FROM ") "ROM ".toList
        rfl (by decide)⟩
    have hfrom : chars "SELECT count(*) AS count \nFROM " =
        chars "SELECT count(*) AS count \n" ++ chars "FROM " := rfl
    simp only [ofStatement, tail, ofLayout_append, ofLayout_cons, ofPiece, ofLayout_target, hfrom,
      List.append_assoc, List.cons_append, List.append_nil]
    rfl
  | insert t ns values c =>
    obtain ⟨behind, he, hdot⟩ := hinsert t ns (row (ns.zip values) ++ returning c)
    refine ⟨[], behind, ?_, .nil, hdot, hfirst (s := "INSERT INTO ") "NSERT INTO ".toList rfl⟩
    rw [ofStatement, List.append_assoc]
    exact he
  | insertMany t ns rows c =>
    obtain ⟨behind, he, hdot⟩ := hinsert t ns (join ", " (rows.mapIdx fun i values =>
      row ((ns.map (numbered i)).zip values)) ++ returning c)
    refine ⟨[], behind, ?_, .nil, hdot, hfirst (s := "INSERT INTO ") "NSERT INTO ".toList rfl⟩
    rw [ofStatement, List.append_assoc]
    exact he
  | update t as f c =>
    refine ⟨[], ofLayout d (.text " SET " :: join ", " (as.map fun a => assignment a.1 a.2) ++
      Layout.filter d " WHERE " f ++ returning c), ?_, .nil,
      word?_dot_ofLayout [" SET "] (.inr ⟨_, by decide, _, rfl⟩) (by decide),
      hfirst (s := "UPDATE ") "PDATE ".toList rfl⟩
    simp only [ofStatement, ofLayout_append, ofLayout_cons, ofLayout_target, List.append_assoc,
      List.cons_append, List.nil_append]
    rfl
  | delete t f c =>
    refine ⟨[], ofLayout d (Layout.filter d " WHERE " f ++ (delete t f c).tail d), ?_, .nil,
      word?_dot_filter _ f (by decide),
      hfirst (s := "DELETE FROM ") "ELETE FROM ".toList rfl⟩
    simp only [ofStatement, tail, ofLayout_append, ofLayout_cons, ofLayout_target, List.append_assoc,
      List.cons_append, List.nil_append]
    rfl

theorem skip?_map_unnamed (cs : List Char) (ls : List Lexeme) :
    skip? cs (ls.map unnamed) = (skip? cs ls).map (List.map unnamed) := by
  induction cs generalizing ls with
  | nil => rfl
  | cons c cs ih =>
    cases ls with
    | nil => rfl
    | cons x ls =>
      cases x with
      | char e =>
        rw [List.map_cons, unnamed, skip?, skip?, ih]
        · split <;> rfl
        · rintro _ ⟨⟩
      | _ => rfl

/-- The target of a text that shows its statement is read where those words first stand. -/
theorem read_target {st : Statement} {ls : List Lexeme} (h : Shows d (ofStatement d st) ls) :
    ∃ before behind, around? st.targetWord ls = some (before, ofTarget st.target ++ behind) ∧
      target? (ofTarget st.target ++ behind) = some (st.target, behind) := by
  obtain ⟨before, behind, hst, hbefore, hdot, haround⟩ := ofLayout_around d st
  rw [Shows, hst] at h
  obtain ⟨l₁, m₁, rfl, h₁, r₁⟩ := List.map_eq_append_iff.mp h
  obtain ⟨l₂, m₂, rfl, h₂, r₂⟩ := List.map_eq_append_iff.mp r₁
  obtain ⟨l₃, m₃, rfl, h₃, h₄⟩ := List.map_eq_append_iff.mp r₂
  obtain rfl := (map_unnamed_eq_fixed hbefore).mp h₁
  obtain rfl := (map_unnamed_eq_fixed (.chars _)).mp h₂
  obtain rfl := (map_unnamed_eq_fixed (isFixed_ofTarget _)).mp h₃
  have hstop : word? "." m₃ = none := by
    rw [← h₄, word?, skip?_map_unnamed] at hdot
    exact Option.map_eq_none_iff.mp hdot
  exact ⟨l₁, m₃, haround _, target?_ofTarget st.target hstop⟩

end Statement

namespace Target

/-- How a target is made of the name of a table. -/
structure Cuts (rules : Naming) (n : String) (t : Target) : Prop where
  /-- Without a dot, or where dots say nothing, the name is kept whole. -/
  whole : rules.qualified = false ∨ '.' ∉ n.toList → t.identifiers = [n]
  /-- Else it is cut in two at its first dot. -/
  parts : rules.qualified = true → ∀ a b, n = a ++ "." ++ b → '.' ∉ a.toList → a ≠ "" →
    t.identifiers = [Text.trim a, Text.trim b]
  /-- A dot in front goes, with nothing in its place. -/
  dropped : rules.qualified = true → ∀ b, n = "." ++ b → t.identifiers = [Text.trim b]
  /-- A blank name is written just where the part behind the dot is blank. -/
  blank : "" ∈ t.identifiers ↔ rules.qualified = true ∧
    ∃ a b, n = a ++ "." ++ b ∧ '.' ∉ a.toList ∧ Text.trim b = ""

theorem cuts_ofName {rules : Naming} {v : Value} {n : String} (h : rules.name? v = some n) :
    Cuts rules n (ofName rules.qualified n) := by
  have hne := Query.name_ne_empty h
  have htrim := Naming.trim_of_name? h
  have hcut : rules.qualified = true → ∀ {a b : String}, n = a ++ "." ++ b → '.' ∉ a.toList →
      ofName rules.qualified n = ⟨if a = "" then none else some (Text.trim a), Text.trim b⟩ := by
    intro hq a b hn ha
    rw [hq]
    exact ofName_dotted hn ha
  have hwhole : rules.qualified = false ∨ '.' ∉ n.toList →
      (ofName rules.qualified n).identifiers = [n] := by
    rintro (hq | hdot)
    · rw [hq]
      rfl
    · exact identifiers_undotted _ hdot
  refine ⟨hwhole, fun hq a b hn ha hne => ?_, fun hq b hn => ?_, ?_⟩
  · rw [hcut hq hn ha, if_neg hne]
    rfl
  · rw [hcut hq (a := "") hn (by simp), if_pos rfl]
    rfl
  · by_cases hq : rules.qualified = true
    · by_cases hdot : '.' ∈ n.toList
      · obtain ⟨a, b, hn, ha⟩ := exists_cut hdot
        have hunique : ∀ {a' b' : String}, n = a' ++ "." ++ b' → '.' ∉ a'.toList →
            Text.trim b' = Text.trim b := by
          intro a' b' hn' ha'
          exact (Target.mk.inj ((hcut hq hn' ha').symm.trans (hcut hq hn ha))).2
        have hfront : a ≠ "" → Text.trim a ≠ "" := Text.trim_ne_empty_of_prefix htrim
          (hn.trans (String.append_assoc ..))
        have hblank : "" ∈ (ofName rules.qualified n).identifiers ↔ Text.trim b = "" := by
          rw [hcut hq hn ha]
          by_cases he : a = ""
          · rw [if_pos he]
            exact List.mem_singleton.trans eq_comm
          · rw [if_neg he]
            exact (List.mem_cons.trans (or_iff_right (hfront he).symm)).trans
              (List.mem_singleton.trans eq_comm)
        rw [hblank]
        constructor
        · exact fun hb => ⟨hq, a, b, hn, ha, hb⟩
        · rintro ⟨-, a', b', hn', ha', hb'⟩
          exact (hunique hn' ha').symm.trans hb'
      · rw [hwhole (.inr hdot), List.mem_singleton]
        refine iff_of_false (Ne.symm hne) ?_
        rintro ⟨-, a, b, rfl, -⟩
        exact hdot (by simp)
    · rw [hwhole (.inl (by simpa using hq)), List.mem_singleton]
      exact iff_of_false (Ne.symm hne) fun h => hq h.1

end Target

namespace Query
open Layout Lexeme Reading

theorem target_of_build {rules : Naming} {kind : StatementKind} {s : State} {data : Value}
    {st : Statement} (h : build rules kind s data = .ok st) :
    target rules (.str s.table) = .ok st.target := by
  cases kind with
  | select =>
    obtain ⟨_, _, _, _, _, _, -, ht, -, -, -, -, rfl⟩ := select_eq_ok.mp h
    exact ht
  | count =>
    obtain ⟨_, _, ht, -, rfl⟩ := count_eq_ok.mp h
    exact ht
  | insert =>
    obtain ⟨_, _, _, _, -, -, ht, -, rfl⟩ := insert_eq_ok.mp h
    exact ht
  | insertMany =>
    obtain ⟨_, _, _, _, _, -, -, -, -, ht, -, rfl⟩ := insertMany_eq_ok h
    exact ht
  | update =>
    obtain ⟨_, _, _, _, _, -, -, -, ht, -, -, rfl⟩ := update_eq_ok.mp h
    exact ht
  | delete =>
    obtain ⟨_, _, _, -, ht, -, -, rfl⟩ := delete_eq_ok.mp h
    exact ht

/-- The target of a statement is the trimmed name of the table, cut at its first dot where names may be
qualified, and the text has just these names in the place of the target. Strict rules take no name
with a blank part. Where nothing is strict, a part in front of the dot that is empty is left out, and a
blank one behind it is written. -/
theorem target_exact {rules : Naming} {kind : StatementKind} {s : State} {data : Value}
    {st : Statement} (h : build rules kind s data = .ok st) : ∃ n,
      rules.name? (.str s.table) = some n ∧ n = Text.trim s.table ∧ n ≠ "" ∧
      st.target.Cuts rules n ∧
      (rules.strict = true → Naming.Whole n ∧ ∀ d, (ofStatement d st).Legible d) ∧
      ∀ d r, st.render d = .ok r → (ofStatement d st).Legible d → ∃ before behind,
        around? st.targetWord (lex d r.sql) = some (before, ofTarget st.target ++ behind) ∧
        target? (ofTarget st.target ++ behind) = some (st.target, behind) := by
  obtain ⟨n, hn, ht⟩ := target_eq_ok.mp (target_of_build h)
  obtain ⟨u, hu, -, htrim⟩ := Naming.name?_eq_some.mp hn
  cases hu
  refine ⟨n, hn, htrim, name_ne_empty hn, ht ▸ Target.cuts_ofName hn,
    fun hs => ⟨Naming.whole_of_strict hs hn, fun d => Strict.legible (strict_of_build hs h d)⟩, ?_⟩
  intro d r hr hl
  obtain ⟨-, -, -, hcells⟩ := mem_values_of_build (d := d) h
  have hregular := regular_ofStatement d hcells
  exact Statement.read_target (shows_plain hregular (plain_of_legible hl hregular hr))

/-- A table in a schema, with blanks around its name. -/
theorem target_exact_schema :
    let rules : Naming := { strict := true, qualified := true }
    let s : State := { table := " public.users ", filter := .map [(.str "id", .int 1)] }
    ∃ st r, build rules .delete s .none = .ok st ∧ st.render .postgresql = .ok r ∧
      r.sql = "DELETE FROM \"public\".\"users\" WHERE \"id\" = %(id_1)s::INTEGER RETURNING *" ∧
      st.target.identifiers = ["public", "users"] ∧ ∃ before behind,
        around? "DELETE FROM " (lex .postgresql r.sql) =
          some (before, ofTarget ⟨some "public", "users"⟩ ++ behind) ∧
        target? (ofTarget ⟨some "public", "users"⟩ ++ behind) =
          some (⟨some "public", "users"⟩, behind) := by
  intro rules s
  obtain ⟨st, hb, htarget, hword, hst⟩ : ∃ st, build rules .delete s .none = .ok st ∧
      st.target = ⟨some "public", "users"⟩ ∧ st.targetWord = "DELETE FROM " ∧
      ((st.render .postgresql).toOption.any fun r => r.sql = "DELETE FROM \"public\".\"users\" " ++
        "WHERE \"id\" = %(id_1)s::INTEGER RETURNING *") = true :=
    Outcome.exists_of_isOk (by decide +kernel)
  obtain ⟨r, hr, hsql⟩ := Outcome.exists_of_isOk hst
  obtain ⟨n, -, hn, -, hcuts, hstrict, hread⟩ := target_exact hb
  obtain ⟨before, behind, hbefore, hbehind⟩ := hread _ r hr ((hstrict rfl).2 _)
  have hdot : n = "public" ++ "." ++ "users" := hn.trans (by decide +kernel)
  rw [htarget] at hbefore hbehind
  rw [hword] at hbefore
  refine ⟨st, r, hb, hr, hsql, ?_, before, behind, hbefore, hbehind⟩
  exact (hcuts.parts rfl "public" "users" hdot (by decide) (by decide)).trans (by decide +kernel)

/-- Where nothing is strict, a blank name is written behind a dot at the end, and a dot in front is
dropped. A name that reads like the mark of a parameter is lost. -/
theorem target_inexact :
    (∃ st r, build { qualified := true } .select { table := "x." } .none = .ok st ∧
      st.target.identifiers = ["x", ""] ∧ st.render .postgresql = .ok r ∧
      r.sql = "SELECT * \nFROM \"x\".\"\"") ∧
    (∃ st r, build { qualified := true } .select { table := ".x" } .none = .ok st ∧
      st.target.identifiers = ["x"] ∧ st.render .postgresql = .ok r ∧
      r.sql = "SELECT * \nFROM \"x\"") ∧
    ∃ st r, build {} .delete { table := "%(a_1)s", filter := .map [(.str "a", .int 1)] } .none = .ok st ∧
      st.target.identifiers = ["%(a_1)s"] ∧ st.render .sqlite = .ok r ∧
      r.sql = "DELETE FROM \"?\" WHERE \"a\" = ? RETURNING *" := by
  have hbuilt : ∀ {rules : Naming} {kind : StatementKind} {s : State} {d : Dialect}
      {names : List String} {sql : String},
      ((build rules kind s .none).toOption.any fun st => decide (st.target.identifiers = names) &&
        (st.render d).toOption.any fun r => r.sql = sql) = true →
      ∃ st r, build rules kind s .none = .ok st ∧ st.target.identifiers = names ∧
        st.render d = .ok r ∧ r.sql = sql := by
    intro rules kind s d names sql h
    cases hst : build rules kind s .none with
    | error f =>
      rw [hst] at h
      cases h
    | ok st =>
      rw [hst] at h
      obtain ⟨hnames, hr⟩ := Bool.and_eq_true_iff.mp h
      obtain ⟨r, hr, hsql⟩ := Outcome.exists_of_isOk hr
      exact ⟨st, r, rfl, of_decide_eq_true hnames, hr, hsql⟩
  exact ⟨hbuilt (by decide +kernel), hbuilt (by decide +kernel), hbuilt (by decide +kernel)⟩

end Query
end TableQuery
