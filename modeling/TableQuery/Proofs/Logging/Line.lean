import TableQuery.Proofs.Logging.Plain

/-! A log line is read back as its record. -/

namespace TableQuery
namespace Logging

namespace Decoded

theorem rightUnique_readsAs : Relator.RightUnique MemberReadsAs := fun _ _ _ h h' =>
  Prod.ext (h.1.trans h'.1.symm) (h.2.unique h'.2)

theorem names_readsAs {ms : List (List Point × Json)} {ns : List (List Nat × Decoded)}
    (h : List.Forall₂ MemberReadsAs ms ns) : ns.map Prod.fst = (ms.map Prod.fst).map spelled := by
  induction h with
  | nil => rfl
  | cons hmn _ ih => rw [List.map_cons, List.map_cons, List.map_cons, ih, hmn.1]

end Decoded

namespace Record
open Decoded

variable {r : Record} {timestamp : String} {message : List Point}

/-- The attributes are under distinct texts, and plain. -/
structure Plain (r : Record) : Prop where
  names : ∀ a ∈ r.attributes, ∃ ps, a.1.text? = some ps
  values : ∀ a ∈ r.attributes, Logging.Plain a.2
  distinct : r.attributes.Distinct

/-- The attributes that are told: those that are not reserved, and in whose place nothing else is said. -/
def told (r : Record) : Attributes := r.shownAttributes.filter fun a => !a.1.string?.any r.taken.contains

/-- No two names are spelled alike. -/
def Apart (as : Attributes) : Prop :=
  ∀ a ∈ as, ∀ b ∈ as, ∀ s t, a.1.text? = some s → b.1.text? = some t → spelled s = spelled t → s = t

/-- What is read of a line: the record's own members, and the attributes that are told, in their order. No name
stands there twice unless names of attributes are spelled alike. -/
structure Tells (r : Record) (timestamp : String) (message : List Point) (ns : List (List Nat × Decoded)) :
    Prop where
  timestamp : Only ns (points "timestamp") (.str (points timestamp))
  level : Only ns (points "level") (.str (spelled r.level))
  logger : Only ns (points "logger") (.str (spelled r.logger))
  message : Only ns (points "message") (.str (spelled message))
  span : ∀ trace id, r.span = some (trace, id) → Active trace id →
    Only ns (points "trace_id") (.str (points (String.ofList (Text.hex 32 trace)))) ∧
    Only ns (points "span_id") (.str (points (String.ofList (Text.hex 16 id))))
  exception : ∀ text, r.exception = some text → Only ns (points "exception") (.str (spelled text))
  attributes : List.Forall₂ (fun n a => Names n a ∧ Is n.2 a.2)
    (ns.filter fun n => n.1 ∉ r.taken.map points) r.told
  distinct : (ns.map Prod.fst).Nodup ↔ Apart r.told

theorem points_of_taken {name : String} (h : name ∈ r.taken) : ∀ n ∈ points name, n < 0x10000 := by
  have hall : ∀ name ∈ ["timestamp", "level", "logger", "message", "trace_id", "span_id", "exception"],
      ∀ n ∈ points name, n < 0x10000 := by decide
  exact hall name (r.taken_sublist.subset h)

theorem spelled_mem_taken {ps : List Point} :
    spelled ps ∈ r.taken.map points ↔ ps ∈ r.taken.map Point.ofText := by
  rw [List.mem_map, List.mem_map]
  constructor
  · rintro ⟨name, hname, h⟩
    exact ⟨name, hname, (eq_ofText_of_spelled h.symm (points_of_taken hname)).symm⟩
  · rintro ⟨name, hname, rfl⟩
    exact ⟨name, hname, (spelled_ofText name).symm⟩

theorem any_taken {a : Datum × Datum} {ps : List Point} (h : a.1.text? = some ps) :
    a.1.string?.any r.taken.contains = true ↔ ps ∈ r.taken.map Point.ofText := by
  rw [Option.any_eq_true, List.mem_map]
  constructor
  · rintro ⟨name, hname, htaken⟩
    rw [Datum.string?_eq_some, h] at hname
    exact ⟨name, List.contains_iff_mem.mp htaken, (Option.some.inj hname).symm⟩
  · rintro ⟨name, hname, rfl⟩
    exact ⟨name, Datum.string?_eq_some.mpr h, List.contains_iff_mem.mpr hname⟩

/-- What is said under a name of the record's own is read under it. -/
theorem only_of_reads {ms : List (List Point × Json)} {ns : List (List Nat × Decoded)} {name : String} {j : Json}
    {d : Decoded} (hns : List.Forall₂ MemberReadsAs ms ns) (hname : name ∈ r.taken)
    (h : Only ms (Point.ofText name) j) (hd : ReadsAs j.chars d) : Only ns (points name) d := by
  intro i
  constructor
  · intro hi
    obtain ⟨m, hm, hspelled, hi⟩ := Lists.exists_of_mem_right hns hi
    have hkey := eq_ofText_of_spelled hspelled.symm (points_of_taken hname)
    have hj : m.2 = j := (h m.2).mp (hkey ▸ hm)
    exact hi.unique (hj ▸ hd)
  · rintro rfl
    obtain ⟨n, hn, hspelled, hread⟩ := Lists.exists_of_mem_left hns ((h j).mpr rfl)
    rw [hd.unique hread, ← spelled_ofText, ← hspelled]
    exact hn

theorem Plain.shown (h : r.Plain) : (∀ a ∈ r.shownAttributes, ∃ ps, a.1.text? = some ps) ∧
    (∀ a ∈ r.shownAttributes, Logging.Plain a.2) ∧ Attributes.Distinct r.shownAttributes :=
  ⟨fun a ha => h.names a (List.mem_of_mem_filter ha), fun a ha => h.values a (List.mem_of_mem_filter ha),
    h.distinct.sublist List.filter_sublist⟩

/-- Distinct texts are distinct names. -/
theorem nodup_ofMembers {as : Attributes} {ms : List (List Point × Json)} (h : Json.ofMembers as = .ok ms)
    (hk : ∀ a ∈ as, ∃ ps, a.1.text? = some ps) (hd : as.Distinct) : (ms.map Prod.fst).Nodup := by
  have hkeys : as.map (·.1.text?) = (ms.map Prod.fst).map some := by
    rw [List.map_map]
    refine Lists.map_eq_map (Json.ofMembers_eq_ok.mp h) fun a ha m _ ham => ?_
    obtain ⟨ps, hps⟩ := hk a ha
    rw [hps]
    exact congrArg some (Except.ok.inj ((Json.keyOf_of_text hps).symm.trans ham.1))
  have htexts : (as.map (·.1.text?)).Nodup := by
    refine List.pairwise_map.mpr (hd.imp_of_mem fun {a b} ha _ hab he => ?_)
    obtain ⟨ps, hps⟩ := hk a ha
    exact hab (.inl ⟨ps, he ▸ hps, hps⟩)
  rw [hkeys] at htexts
  exact htexts.of_map _

theorem mem_told {a : Datum × Datum} {ps : List Point} (h : a.1.text? = some ps) :
    a ∈ r.told ↔ a ∈ r.shownAttributes ∧ ps ∉ r.taken.map Point.ofText := by
  rw [told, List.mem_filter, Bool.not_eq_true', ← Bool.not_eq_true, any_taken h]

/-- Names of members are the record's own, and those of the attributes that are told. -/
theorem mem_names {as : List (List Point × Json)} (h : Json.ofMembers r.shownAttributes = .ok as)
    (hk : ∀ a ∈ r.shownAttributes, ∃ ps, a.1.text? = some ps) (timestamp : String) (message : List Point)
    {ps : List Point} : ps ∈ ((r.own timestamp message).foldl setMember as).map Prod.fst ↔
      ps ∈ r.taken.map Point.ofText ∨ ∃ a ∈ r.told, a.1.text? = some ps := by
  have hall := Json.ofMembers_eq_ok.mp h
  have htext : ∀ {a : Datum × Datum} {ps : List Point}, a ∈ r.shownAttributes → Json.keyOf a.1 = .ok ps →
      a.1.text? = some ps := by
    intro a ps ha hkey
    obtain ⟨qs, hqs⟩ := hk a ha
    rw [Json.keyOf_of_text hqs] at hkey
    rw [hqs, Except.ok.inj hkey]
  rw [List.mem_map]
  constructor
  · rintro ⟨m, hm, rfl⟩
    rcases (mem_setMembers (nodup_own r timestamp message)).mp hm with hm | ⟨hm, hnot⟩
    · exact .inl (r.keys_own timestamp message ▸ List.mem_map_of_mem hm)
    · obtain ⟨a, ha, hkey, -⟩ := Lists.exists_of_mem_right hall hm
      have hps := htext ha hkey
      exact .inr ⟨a, (mem_told hps).mpr ⟨ha, by rwa [keys_own] at hnot⟩, hps⟩
  · rintro (hm | ⟨a, ha, hps⟩)
    · rw [← r.keys_own timestamp message] at hm
      obtain ⟨m, hown, rfl⟩ := List.mem_map.mp hm
      exact ⟨m, (mem_setMembers (nodup_own r timestamp message)).mpr (.inl hown), rfl⟩
    · obtain ⟨ha, hnot⟩ := (mem_told hps).mp ha
      obtain ⟨m, hm, hkey, -⟩ := Lists.exists_of_mem_left hall ha
      obtain rfl : ps = m.1 := Except.ok.inj ((Json.keyOf_of_text hps).symm.trans hkey)
      exact ⟨m, (mem_setMembers (nodup_own r timestamp message)).mpr (.inr ⟨hm, by rwa [keys_own]⟩), rfl⟩

/-- Names are read as distinct ones unless those of attributes are spelled alike: nothing but a name of the
record's own is spelled like it. -/
theorem nodup_names {names : List (List Point)} (hn : names.Nodup) (hnames : ∀ ps, ps ∈ names ↔
      ps ∈ r.taken.map Point.ofText ∨ ∃ a ∈ r.told, a.1.text? = some ps) :
    (names.map spelled).Nodup ↔ Apart r.told := by
  rw [List.nodup_map_iff_inj_on hn]
  constructor
  · intro h a ha b hb s t hs ht
    exact h s ((hnames s).mpr (.inr ⟨a, ha, hs⟩)) t ((hnames t).mpr (.inr ⟨b, hb, ht⟩))
  · intro h s hs t ht he
    have hown : ∀ {s t : List Point}, s ∈ r.taken.map Point.ofText → spelled s = spelled t → s = t := by
      rintro s t hs he
      obtain ⟨name, hname, rfl⟩ := List.mem_map.mp hs
      rw [spelled_ofText] at he
      exact (eq_ofText_of_spelled he.symm (points_of_taken hname)).symm
    rcases (hnames s).mp hs with hs | ⟨a, ha, hs⟩
    · exact hown hs he
    rcases (hnames t).mp ht with ht | ⟨b, hb, ht⟩
    · exact (hown ht he.symm).symm
    · exact h a ha b hb s t hs ht he

/-- The members of other names than the record's own are read as the attributes that are told. -/
theorem told_of_reads {as ms : List (List Point × Json)} {ns₀ ns : List (List Nat × Decoded)}
    (hread : List.Forall₂ MemberReadsAs as ns₀)
    (his : List.Forall₂ (fun n a => Names n a ∧ Is n.2 a.2) ns₀ r.shownAttributes)
    (hms : (ms.filter fun m => m.1 ∉ r.taken.map Point.ofText) = as.filter fun m => m.1 ∉ r.taken.map Point.ofText)
    (hns : List.Forall₂ MemberReadsAs ms ns) : List.Forall₂ (fun n a => Names n a ∧ Is n.2 a.2)
      (ns.filter fun n => n.1 ∉ r.taken.map points) r.told := by
  have hfilter : ∀ {ms : List (List Point × Json)} {ns : List (List Nat × Decoded)},
      List.Forall₂ MemberReadsAs ms ns → List.Forall₂ MemberReadsAs
        (ms.filter fun m => m.1 ∉ r.taken.map Point.ofText) (ns.filter fun n => n.1 ∉ r.taken.map points) := by
    intro ms ns h
    refine List.rel_filter (fun m n hmn => ?_) h
    simp only [decide_eq_true_eq]
    rw [hmn.1, spelled_mem_taken]
  have hsame := Decoded.rightUnique_readsAs.forall₂ (hms ▸ hfilter hns) (hfilter hread)
  rw [hsame]
  refine List.rel_filter (fun n a hna => ?_) his
  obtain ⟨⟨ps, hps, hspelled⟩, -⟩ := hna
  simp only [decide_eq_true_eq]
  rw [hspelled, spelled_mem_taken, Bool.not_eq_true', ← Bool.not_eq_true, any_taken hps]

theorem reads_own (r : Record) (timestamp : String) (message : List Point) :
    ∀ m ∈ r.own timestamp message, ∃ ps, m.2 = .str ps := by
  intro m hm
  simp only [own, texts, List.mem_append, List.mem_cons, List.not_mem_nil, or_false, Option.mem_toList,
    Option.map_eq_some_iff] at hm
  rcases hm with ((rfl | rfl | rfl | rfl) | hm) | ⟨ps, -, rfl⟩
  · exact ⟨_, rfl⟩
  · exact ⟨_, rfl⟩
  · exact ⟨_, rfl⟩
  · exact ⟨_, rfl⟩
  · unfold spanMembers at hm
    split at hm
    · split at hm
      · simp only [texts, List.mem_cons, List.not_mem_nil, or_false] at hm
        rcases hm with rfl | rfl <;> exact ⟨_, rfl⟩
      · cases hm
    · cases hm
  · exact ⟨ps, rfl⟩

/-- What the record says itself is all that is read under its name. -/
theorem only_own {as : List (List Point × Json)} {ns : List (List Nat × Decoded)} {name : String} {ps : List Point}
    (hns : List.Forall₂ MemberReadsAs ((r.own timestamp message).foldl setMember as) ns)
    (hmem : (Point.ofText name, Json.str ps) ∈ r.own timestamp message) :
    Only ns (points name) (.str (spelled ps)) := by
  have hkey : Point.ofText name ∈ r.taken.map Point.ofText :=
    r.keys_own timestamp message ▸ List.mem_map_of_mem hmem
  obtain ⟨_, hname, he⟩ := List.mem_map.mp hkey
  rw [Point.ofText_inj] at he
  exact only_of_reads hns (he ▸ hname) (only_setMembers (nodup_own r timestamp message) hmem as)
    (readsAs_str ps)

/-- Members that are read, those of the attributes as these, are read as what the record tells. -/
theorem tells_of_reads (h : r.Plain) {as : List (List Point × Json)} {ns₀ ns : List (List Nat × Decoded)}
    (has : Json.ofMembers r.shownAttributes = .ok as) (hread : List.Forall₂ MemberReadsAs as ns₀)
    (his : List.Forall₂ (fun n a => Names n a ∧ Is n.2 a.2) ns₀ r.shownAttributes)
    (hns : List.Forall₂ MemberReadsAs ((r.own timestamp message).foldl setMember as) ns) :
    r.Tells timestamp message ns := by
  obtain ⟨hnames, -, hdistinct⟩ := h.shown
  have hfirst : ∀ m ∈ [texts "timestamp" timestamp, (Point.ofText "level", .str r.level),
      (Point.ofText "logger", .str r.logger), (Point.ofText "message", .str message)],
      m ∈ r.own timestamp message := fun m hm => List.mem_append_left _ (List.mem_append_left _ hm)
  have hspan : ∀ m ∈ spanMembers r.span, m ∈ r.own timestamp message := fun m hm =>
    List.mem_append_left _ (List.mem_append_right _ hm)
  constructor
  case timestamp =>
    have htimestamp := only_own hns (hfirst _ (.head _))
    rwa [spelled_ofText] at htimestamp
  case level => exact only_own hns (hfirst _ (.tail _ (.head _)))
  case logger => exact only_own hns (hfirst _ (.tail _ (.tail _ (.head _))))
  case message => exact only_own hns (hfirst _ (.tail _ (.tail _ (.tail _ (.head _)))))
  case span =>
    intro trace id hr hactive
    rw [hr, spanMembers_of_active hactive] at hspan
    have htrace := only_own hns (hspan _ (.head _))
    have hid := only_own hns (hspan _ (.tail _ (.head _)))
    rw [spelled_ofText] at htrace hid
    exact ⟨htrace, hid⟩
  case exception =>
    intro text hexception
    refine only_own hns (List.mem_append_right _ ?_)
    rw [hexception]
    exact List.mem_singleton.mpr rfl
  case attributes =>
    refine told_of_reads hread his (filter_setMembers (fun m hm x hx => ?_) as) hns
    rw [decide_eq_false_iff_not, not_not, hx, ← r.keys_own timestamp message]
    exact List.mem_map_of_mem hm
  case distinct =>
    rw [names_readsAs hns]
    exact nodup_names (nodup_setMembers (nodup_ofMembers has hnames hdistinct)) fun ps =>
      mem_names has hnames timestamp message

/-- A plain record with a date and a message has members that are read as it tells them. -/
theorem exists_tells (h : r.Plain) (ht : Timestamp.text r.created = .ok timestamp)
    (hg : r.attributes.lookup "getMessage" = none)
    (hm : Template.message r.template r.args = .ok message) :
    ∃ ms ns, r.members = .ok ms ∧ List.Forall₂ MemberReadsAs ms ns ∧ r.Tells timestamp message ns := by
  obtain ⟨hnames, hvalues, -⟩ := h.shown
  obtain ⟨as, ns₀, has, hread, his⟩ := carries_attributes hnames fun a ha => (hvalues a ha).carries
  have hall : ∀ m ∈ (r.own timestamp message).foldl setMember as, ∃ n, MemberReadsAs m n := by
    intro m hmem
    rcases (mem_setMembers (nodup_own r timestamp message)).mp hmem with hmem | ⟨hmem, -⟩
    · obtain ⟨ps, hps⟩ := reads_own r timestamp message m hmem
      exact ⟨(spelled m.1, .str (spelled ps)), rfl, hps ▸ readsAs_str ps⟩
    · obtain ⟨n, -, hn⟩ := Lists.exists_of_mem_left hread hmem
      exact ⟨n, hn⟩
  obtain ⟨ns, hns⟩ := Lists.exists_forall₂ hall
  exact ⟨_, ns, members_eq_ok.mpr ⟨timestamp, message, as, ht, hg, hm, has, rfl⟩, hns,
    tells_of_reads h has hread his hns⟩

theorem exists_line (h : r.Plain) (ht : Timestamp.text r.created = .ok timestamp)
    (hg : r.attributes.lookup "getMessage" = none)
    (hm : Template.message r.template r.args = .ok message) :
    ∃ line ns, r.line = .ok line ∧ Printable line.toList ∧ read line = some (.obj ns) ∧
      r.Tells timestamp message ns := by
  obtain ⟨ms, ns, hms, hread, htells⟩ := exists_tells h ht hg hm
  have hobj := readsAs_obj hread
  refine ⟨_, ns, Outcome.bind_eq_ok.mpr ⟨ms, hms, rfl⟩, ?_, read_text hobj, htells⟩
  rw [Json.text, String.toList_ofList]
  exact hobj.printable

theorem parts_of_line {line : String} (h : r.line = .ok line) : ∃ timestamp message attributes,
    Timestamp.text r.created = .ok timestamp ∧ r.attributes.lookup "getMessage" = none ∧
    Template.message r.template r.args = .ok message ∧ Json.ofMembers r.shownAttributes = .ok attributes := by
  obtain ⟨ms, hms, -⟩ := Outcome.bind_eq_ok.mp h
  obtain ⟨timestamp, message, attributes, ht, hg, hm, ha, -⟩ := members_eq_ok.mp hms
  exact ⟨timestamp, message, attributes, ht, hg, hm, ha⟩

/-- A record has a line where its time is a date, its message can be made and no attribute hides the method
that makes it; the line is printable, and it is read as what the record tells. -/
theorem line_tells (r : Record) (h : r.Plain) :
    ((∃ line, r.line = .ok line) ↔ (∃ timestamp, Timestamp.text r.created = .ok timestamp) ∧
      (∃ message, Template.message r.template r.args = .ok message) ∧ r.attributes.lookup "getMessage" = none) ∧
    ∀ line, r.line = .ok line → ∃ timestamp message ns, Timestamp.text r.created = .ok timestamp ∧
      Template.message r.template r.args = .ok message ∧ Printable line.toList ∧
      read line = some (.obj ns) ∧ r.Tells timestamp message ns := by
  constructor
  · constructor
    · rintro ⟨line, hline⟩
      obtain ⟨timestamp, message, -, ht, hg, hm, -⟩ := parts_of_line hline
      exact ⟨⟨timestamp, ht⟩, ⟨message, hm⟩, hg⟩
    · rintro ⟨⟨timestamp, ht⟩, ⟨message, hm⟩, hg⟩
      obtain ⟨line, -, hline, -⟩ := exists_line h ht hg hm
      exact ⟨line, hline⟩
  · intro line hline
    obtain ⟨timestamp, message, -, ht, hg, hm, -⟩ := parts_of_line hline
    obtain ⟨line', ns, hline', hprintable, hread, htells⟩ := exists_line h ht hg hm
    obtain rfl := Except.ok.inj (hline.symm.trans hline')
    exact ⟨timestamp, message, ns, ht, hm, hprintable, hread, htells⟩

/-- The halves of a character that stand beside each other. -/
def beside : List Point := [.half 0x3D, .half 0x600]

/-- A record with an attribute of the name of a member of its own, and a nested one. -/
def nested : Record where
  logger := Point.ofText "app"
  level := Point.ofText "INFO"
  template := .value (.str "%s\n%s")
  args := [.value (.str "a"), .text beside]
  attributes := [(.value (.str "level"), .value (.int 3)), (.text beside.reverse, .text beside),
    (.value (.str "sizes"), .map [(.text beside,
      .value (.list [.none, .bool true, .float (.finite false (2 ^ 52) (-53))]))])]
  exception := some (Point.ofText "ValueError: no")
  span := some (1, 2)

theorem nested_plain : nested.Plain := by
  have hfloat : Logging.Plain (.value (.float (.finite false (2 ^ 52) (-53)))) :=
    .float false ⟨by decide, by decide, by decide, .inl le_rfl⟩
  constructor
  · intro a ha
    simp only [nested, List.mem_cons, List.not_mem_nil, or_false] at ha
    rcases ha with rfl | rfl | rfl <;> exact ⟨_, rfl⟩
  · intro a ha
    simp only [nested, List.mem_cons, List.not_mem_nil, or_false] at ha
    rcases ha with rfl | rfl | rfl
    · exact .int (by decide)
    · exact .text rfl
    · refine .map rfl (List.forall_mem_singleton.mpr ⟨_, rfl⟩) (List.forall_mem_singleton.mpr (.list rfl ?_))
      intro x hx
      simp only [List.map_cons, List.map_nil, List.mem_cons, List.not_mem_nil, or_false] at hx
      rcases hx with rfl | rfl | rfl
      · exact .none
      · exact .bool true
      · exact hfloat
  · simp [Attributes.Distinct, nested, Datum.Alike, Datum.text?, Value.text?, beside, Point.ofText, Value.same]

theorem line_tells_nested : nested.Plain ∧ ∃ line ns, nested.line = .ok line ∧ Printable line.toList ∧
    read line = some (.obj ns) ∧ Only ns (points "level") (.str (points "INFO")) := by
  obtain ⟨hiff, hread⟩ := line_tells nested nested_plain
  obtain ⟨timestamp, ht, -⟩ := Outcome.exists_of_isOk (p := fun _ => True)
    (x := Timestamp.text nested.created) (by decide +kernel)
  obtain ⟨message, hm, -⟩ := Outcome.exists_of_isOk (p := fun _ => True)
    (x := Template.message nested.template nested.args) (by decide +kernel)
  have hg : nested.attributes.lookup "getMessage" = none := by decide
  obtain ⟨line, hline⟩ := hiff.mpr ⟨⟨timestamp, ht⟩, ⟨message, hm⟩, hg⟩
  obtain ⟨_, _, ns, -, -, hprintable, hns, htells⟩ := hread line hline
  have hlevel := htells.level
  rw [show nested.level = Point.ofText "INFO" from rfl, spelled_ofText] at hlevel
  exact ⟨nested_plain, line, ns, hline, hprintable, hns, hlevel⟩

/-- A record of a template and its arguments, or of attributes. -/
def simple (template : String) (args : List Datum) (attributes : Attributes) : Record where
  logger := Point.ofText "app"
  level := Point.ofText "INFO"
  template := .value (.str template)
  args := args
  attributes := attributes

/-- There are records without a line: where the arguments do not fit the template, where an attribute hides the
method that makes the message, where the time is no date, and where an integer is too long. Halves of a
character that stand beside each other are read as the character, in a message, in an attribute, and in its name,
which another attribute can have as well. -/
theorem line_needs :
    (∀ line, (simple "%d" [.value (.str "x")] []).line ≠ .ok line) ∧
    (∀ line, (simple "m" [] [(.value (.str "getMessage"), .value (.int 1))]).line ≠ .ok line) ∧
    (∀ line, Record.line { simple "m" [] [] with created := .finite false 1 60 } ≠ .ok line) ∧
    (∀ line, (simple "m" [] [(.value (.str "n"), .value .tooLong)]).line ≠ .ok line) ∧
    ∃ line ns, (simple "%c%c" [.value (.int 0xD83D), .value (.int 0xDE00)]
        [(.value (.str "😀"), .text beside), (.text beside, .value .none)]).line = .ok line ∧
      read line = some (.obj ns) ∧ Only ns (points "message") (.str [0x1F600]) ∧
      ([0x1F600], .str [0x1F600]) ∈ ns ∧ ¬(ns.map Prod.fst).Nodup := by
  refine ⟨fun line h => ?_, fun line h => ?_, fun line h => ?_, fun line h => ?_, ?_⟩
  · obtain ⟨-, message, -, -, -, hm, -⟩ := parts_of_line h
    cases hm
  · obtain ⟨-, -, -, -, hg, -⟩ := parts_of_line h
    cases hg
  · obtain ⟨timestamp, -, -, ht, -⟩ := parts_of_line h
    have hfault : (Timestamp.text (.finite false 1 60)).toOption.isNone = true := by decide +kernel
    rw [show Record.created _ = .finite false 1 60 from rfl] at ht
    rw [ht] at hfault
    cases hfault
  · obtain ⟨-, -, attributes, -, -, -, ha⟩ := parts_of_line h
    obtain ⟨⟨-, hwritable⟩, -⟩ := List.forall_mem_cons.mp (Json.exists_ofMembers.mp ⟨attributes, ha⟩)
    exact Json.not_writable_of_long Value.hasText_tooLong hwritable
  · obtain ⟨timestamp, ht, -⟩ := Outcome.exists_of_isOk (p := fun _ => True)
      (x := Timestamp.text (.zero false)) (by decide +kernel)
    have hplain : Plain (simple "%c%c" [.value (.int 0xD83D), .value (.int 0xDE00)]
        [(.value (.str "😀"), .text beside), (.text beside, .value .none)]) := by
      constructor
      · exact List.forall_mem_cons.mpr ⟨⟨_, rfl⟩, List.forall_mem_singleton.mpr ⟨_, rfl⟩⟩
      · exact List.forall_mem_cons.mpr ⟨.text rfl, List.forall_mem_singleton.mpr .none⟩
      · simp [Attributes.Distinct, simple, Datum.Alike, Datum.text?, Value.text?, beside, Point.ofText]
    have hm : Template.message (.value (.str "%c%c")) [.value (.int 0xD83D), .value (.int 0xDE00)] = .ok beside := rfl
    obtain ⟨line, ns, hline, -, hread, htells⟩ := exists_line hplain ht rfl hm
    have htold : told (simple "%c%c" [.value (.int 0xD83D), .value (.int 0xDE00)]
        [(.value (.str "😀"), .text beside), (.text beside, .value .none)]) =
        [(.value (.str "😀"), .text beside), (.text beside, .value .none)] := rfl
    have hattributes := htells.attributes
    have hdistinct := htells.distinct
    rw [htold] at hattributes hdistinct
    refine ⟨line, ns, hline, hread, htells.message, ?_, fun hnodup => ?_⟩
    · obtain ⟨n, hn, ⟨ps, hps, hspelled⟩, his⟩ := Lists.exists_of_mem_right hattributes (.head _)
      obtain ⟨name, d⟩ := n
      cases hps
      obtain rfl : name = [0x1F600] := hspelled
      cases his with
      | str h =>
        cases h
        exact List.mem_of_mem_filter hn
      | arr h => cases h
      | obj h => cases h
    · -- The character and its halves are different names, and spelled alike.
      have hsame := hdistinct.mp hnodup _ (.head _) _ (.tail _ (.head _)) _ _ rfl rfl rfl
      revert hsame
      decide

end Record

end Logging
end TableQuery
