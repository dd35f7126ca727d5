import ReleaseSelection.Proofs.Layering

/-!
# Loading

A configuration is loaded when the layers read as one whose policy keeps its bounds, and only then
(`Configuration.load_eq_ok_iff`). What the environment has for a setting is told by its variables:
the last one that concerns a setting decides (`Configuration.gathers_environment`). Both together
are `Configuration.load_layered`.
-/

namespace ReleaseSelection

/-! ## Bounds -/

/-- The bounds that the settings of a policy have to keep. -/
structure Policy.WithinBounds (p : Policy) : Prop where
  recency : 1 ≤ p.historyRecencyHours.val ∧ p.historyRecencyHours.val ≤ 876000
  fileAge : 1 ≤ p.properMaxFileAgeDays.val ∧ p.properMaxFileAgeDays.val ≤ 36500
  concurrency : 0 < p.maxConcurrentEvaluations.val
  timeout : 0 < p.evaluationTimeout.val

theorem Policy.validate_eq_ok_iff (p : Policy) : p.validate = .ok () ↔ p.WithinBounds := by
  have atLeast := p.maxConcurrentEvaluations.lo_le
  have longer := p.evaluationTimeout.lo_le
  unfold validate
  constructor
  · intro valid
    split at valid
    · cases valid
    split at valid
    · cases valid
    split at valid
    · cases valid
    split at valid
    · cases valid
    · constructor <;> omega
  · rintro ⟨recency, fileAge, concurrency, timeout⟩
    rw [if_neg (by omega), if_neg (by omega), if_neg (by omega), if_neg (by omega)]

namespace Configuration

/-! ## Variables of a setting -/

namespace Section

/-- The key of a variable is that of a setting, of something in it or of what it is in. -/
def Concerns (s : Section) (setting : String) (names : List String) : Prop :=
  names <+: [s.name, setting] ∨ [s.name, setting] <+: names

/-- What a variable says of a setting, alone or together with others of its section. Of variables
that have no record for the section, or something within the setting, nothing is said here. -/
inductive Says (s : Section) (setting : String) : Option Data → List String → Data → Prop
  | own (value : Data) : Says s setting (some value) [s.name, setting] value
  | whole (members : List (String × Data)) :
      Says s setting (members.lookup setting) [s.name] (.record members)
  | nothing {names : List String} {d : Data} (other : ¬ s.Concerns setting names) :
      Says s setting none names d

/-- What a layer has for a setting, in a record if the layer has the section at all. -/
structure Has (s : Section) (setting : String) (value : Option Data) (layer : Data) : Prop where
  isRecord : layer.IsRecord
  within : ∀ d ∈ layer.member? s.name, d.IsRecord
  value : s.valueIn? setting layer = value

variable {s : Section} {setting : String} {names : List String} {value below above : Option Data}
  {d leaf layer lower upper : Data}

theorem has_of_member (isRecord : layer.IsRecord) (held : layer.member? s.name = some d)
    (within : d.IsRecord) (found : d.part? s.settings setting = value) :
    s.Has setting value layer := by
  refine ⟨isRecord, ?_, ?_⟩
  · intro e mem
    obtain rfl := Option.some.inj (held.symm.trans mem)
    exact within
  · rw [valueIn?, held]
    exact found

theorem has_of_absent (isRecord : layer.IsRecord) (absent : layer.member? s.name = none) :
    s.Has setting none layer := by
  refine ⟨isRecord, ?_, ?_⟩
  · intro e mem
    rw [absent] at mem
    cases mem
  · rw [valueIn?, absent]
    rfl

theorem has_nested (other : ¬ s.Concerns setting names) :
    s.Has setting none (Variable.nested d names) := by
  cases names with
  | nil => exact absurd (.inl List.nil_prefix) other
  | cons first names =>
    by_cases same : s.name = first
    · subst same
      cases names with
      | nil => exact absurd (.inl ⟨[setting], rfl⟩) other
      | cons second names =>
        apply has_of_member ⟨_, rfl⟩ List.lookup_cons_self ⟨_, rfl⟩
        apply lookup_cons_of_ne
        rintro rfl
        exact other (.inr ⟨names, rfl⟩)
    · exact has_of_absent ⟨_, rfl⟩ (lookup_cons_of_ne same _ [])

theorem Says.has (told : s.Says setting value names d) :
    s.Has setting value (Variable.nested d names) := by
  cases told with
  | own value =>
    exact has_of_member ⟨_, rfl⟩ List.lookup_cons_self ⟨_, rfl⟩ List.lookup_cons_self
  | whole members => exact has_of_member ⟨_, rfl⟩ List.lookup_cons_self ⟨members, rfl⟩ rfl
  | nothing other => exact has_nested other

theorem Has.merge (low : s.Has setting below lower) (up : s.Has setting above upper) :
    s.Has setting (Data.stack below above) (Data.merge lower upper) := by
  obtain ⟨within, value⟩ := Data.stack_records low.within up.within s.settings setting
  have member := Data.member?_merge low.isRecord up.isRecord s.name
  refine ⟨low.isRecord.merge up.isRecord, ?_, ?_⟩
  · rw [member]
    exact within
  · rw [valueIn?, member, value, ← low.value, ← up.value]
    rfl

/-- A single value counts whatever is below it, also where the section is no record. -/
theorem Has.over (low : lower.IsRecord) (up : s.Has setting (some leaf) upper)
    (isLeaf : leaf.IsLeaf) : s.Has setting (some leaf) (Data.merge lower upper) := by
  obtain ⟨d, held, found⟩ := Option.bind_eq_some_iff.mp up.value
  obtain ⟨e, stacked, isRecord, value⟩ :=
    Data.stack_record_leaf (lower.member? s.name) (up.within d held) found isLeaf
  have member : (Data.merge lower upper).member? s.name = some e := by
    rw [Data.member?_merge low up.isRecord, held, stacked]
  exact has_of_member (low.merge up.isRecord) member isRecord value

theorem Has.foldl {layers : List Data} (has : s.Has setting value lower)
    (others : ∀ layer ∈ layers, s.Has setting none layer) :
    s.Has setting value (layers.foldl Data.merge lower) := by
  induction layers generalizing lower with
  | nil => exact has
  | cons layer layers ih =>
    obtain ⟨next, rest⟩ := List.forall_mem_cons.mp others
    have merged := has.merge next
    rw [Data.stack_none] at merged
    exact ih merged rest

end Section

variable {assignments : List (String × String)} {document : Option String} {file env : Data}
  {c : Configuration} {s : Section} {setting : String} {leaf : Data}

/-- None of the variables says anything of a setting. -/
def LeavesOut (assignments : List (String × String)) (s : Section) (setting : String) : Prop :=
  ∀ a ∈ assignments, ∀ names d, Variable.names? variableMark a.1 = some names →
    Variable.read a.2 = .ok d → s.Says setting none names d

/-- The last of the variables that say anything of a setting has a value for it. -/
def Assigns (assignments : List (String × String)) (s : Section) (setting : String)
    (value : Data) : Prop :=
  ∃ before name text after names d, assignments = before ++ (name, text) :: after ∧
    Variable.names? variableMark name = some names ∧ Variable.read text = .ok d ∧
    s.Says setting (some value) names d ∧ LeavesOut after s setting

/-- What an environment has for the settings, as its variables tell. -/
structure Gathers (assignments : List (String × String)) (env : Data) : Prop where
  assigned : ∀ s setting leaf, Assigns assignments s setting leaf → leaf.IsLeaf →
    s.valueIn? setting env = some leaf
  left : ∀ s setting, LeavesOut assignments s setting → s.valueIn? setting env = none

theorem LeavesOut.has {layers : List Data} (leaves : LeavesOut assignments s setting)
    (made : (assignments.filterMap named?).mapM layer = .ok layers) :
    ∀ layer ∈ layers, s.Has setting none layer := by
  intro layer mem
  obtain ⟨a, among, names, d, named, read, rfl⟩ := exists_assignment made layer mem
  exact (leaves a among names d named read).has

theorem Assigns.valueIn? (assigns : Assigns assignments s setting leaf) (isLeaf : leaf.IsLeaf)
    (gathered : environment assignments = .ok env) : s.valueIn? setting env = some leaf := by
  obtain ⟨before, name, text, after, names, d, rfl, named, read, told, leaves⟩ := assigns
  obtain ⟨layers, made, rfl⟩ := exists_layers gathered
  have own : named? (name, text) = some (names, text) := by rw [named?, named]; rfl
  have written : layer (names, text) = .ok (Variable.nested d names) := by rw [layer, read]; rfl
  rw [List.filterMap_append, List.filterMap_cons_some own, List.mapM_append] at made
  obtain ⟨lower, madeLower, made⟩ := Fault.bind_eq_ok_iff.mp made
  obtain ⟨_, madeUpper, made⟩ := Fault.bind_eq_ok_iff.mp made
  rw [List.mapM_cons] at madeUpper
  obtain ⟨_, madeOwn, madeUpper⟩ := Fault.bind_eq_ok_iff.mp madeUpper
  obtain ⟨upper, madeAfter, same⟩ := Fault.bind_eq_ok_iff.mp madeUpper
  obtain rfl := Except.ok.inj (written.symm.trans madeOwn)
  obtain rfl := Except.ok.inj same
  obtain rfl := Except.ok.inj made
  have base := Data.nullFreeRecord_overlay (nullFreeRecord_layers madeLower)
  have assigned := Section.Has.over base.isRecord told.has isLeaf
  -- the variables before it may have left anything, those after it leave the setting as it is
  rw [Data.overlay, List.foldl_append, List.foldl_cons]
  exact (assigned.foldl (leaves.has madeAfter)).value

theorem gathers_environment (gathered : environment assignments = .ok env) :
    Gathers assignments env := by
  constructor
  · intro s setting leaf assigns isLeaf
    exact assigns.valueIn? isLeaf gathered
  · intro s setting leaves
    obtain ⟨layers, made, rfl⟩ := exists_layers gathered
    have empty : s.Has setting none (.record []) := Section.has_of_absent ⟨[], rfl⟩ rfl
    exact (empty.foldl (leaves.has made)).value

/-! ## Loading -/

theorem nullFreeRecord_document? (read : document? document = some file) :
    file.NullFreeRecord := by
  cases document with
  | some text => exact Toml.nullFree_read? read
  | none =>
    obtain rfl := Option.some.inj read
    exact ⟨⟨[], rfl⟩, .record (List.forall_mem_nil _)⟩

/-- The layers read as a configuration, whether or not it keeps the bounds. -/
def Decodes (file env : Data) (c : Configuration) : Prop :=
  ofData? (cutRows (settings file env)) = some c

theorem load_of_not_decodes (read : document? document = some file)
    (gathered : environment assignments = .ok env) (not : ∀ c, ¬ Decodes file env c) :
    load document assignments = .error .unreadable := by
  have unread := Option.eq_none_iff_forall_ne_some.mpr not
  simp only [load, gathered, read, unread]

theorem load_of_withinBounds (read : document? document = some file)
    (gathered : environment assignments = .ok env) (decodes : Decodes file env c)
    (within : c.policy.WithinBounds) : load document assignments = .ok c := by
  have valid := (Policy.validate_eq_ok_iff _).mpr within
  unfold Decodes at decodes
  simp only [load, gathered, read, decodes, valid]

theorem load_of_not_withinBounds (read : document? document = some file)
    (gathered : environment assignments = .ok env) (decodes : Decodes file env c)
    (not : ¬ c.policy.WithinBounds) :
    ∃ error, load document assignments = .error (.invalid error) := by
  unfold Decodes at decodes
  cases valid : c.policy.validate with
  | ok _ => exact absurd ((Policy.validate_eq_ok_iff _).mp valid) not
  | error error =>
    refine ⟨error, ?_⟩
    simp only [load, gathered, read, decodes, valid]

theorem load_eq_ok_iff : load document assignments = .ok c ↔
    ∃ file env, document? document = some file ∧ environment assignments = .ok env ∧
      Decodes file env c ∧ c.policy.WithinBounds := by
  constructor
  · intro loaded
    cases gathered : environment assignments with
    | error fault =>
      simp only [load, gathered] at loaded
      cases loaded
    | ok env =>
      cases read : document? document with
      | none =>
        simp only [load, gathered, read] at loaded
        cases loaded
      | some file =>
        refine ⟨file, env, rfl, rfl, ?_⟩
        by_cases decodes : ∃ d, Decodes file env d
        · obtain ⟨d, decodes⟩ := decodes
          by_cases within : d.policy.WithinBounds
          · rw [load_of_withinBounds read gathered decodes within] at loaded
            obtain rfl := Except.ok.inj loaded
            exact ⟨decodes, within⟩
          · obtain ⟨error, refused⟩ := load_of_not_withinBounds read gathered decodes within
            rw [refused] at loaded
            cases loaded
        · rw [load_of_not_decodes read gathered (not_exists.mp decodes)] at loaded
          cases loaded
  · rintro ⟨file, env, read, gathered, decodes, within⟩
    exact load_of_withinBounds read gathered decodes within

/-- **Of each setting the highest layer with a value counts**: the environment, else the document,
else the defaults. Delay profiles are taken from one layer as a whole. Layers that do not read as a
configuration, or as one out of bounds, are not loaded. -/
theorem load_layered (document : Option String) (assignments : List (String × String)) :
    (∀ c, load document assignments = .ok c → ∃ file env, document? document = some file ∧
      environment assignments = .ok env ∧ Gathers assignments env ∧ Layered file env c ∧
        c.policy.WithinBounds) ∧
    (∀ file env, document? document = some file → environment assignments = .ok env →
      ((∀ c, ¬ Decodes file env c) → load document assignments = .error .unreadable) ∧
      ∀ c, Decodes file env c →
        (c.policy.WithinBounds → load document assignments = .ok c) ∧
        (¬ c.policy.WithinBounds →
          ∃ error, load document assignments = .error (.invalid error))) ∧
    (document? document = none → ∃ error, load document assignments = .error error) := by
  refine ⟨?_, ?_, ?_⟩
  · intro c loaded
    obtain ⟨file, env, read, gathered, decodes, within⟩ := load_eq_ok_iff.mp loaded
    have fileFree := nullFreeRecord_document? read
    have envFree := nullFree_environment gathered
    exact ⟨file, env, read, gathered, gathers_environment gathered,
      layered_of_read fileFree envFree decodes, within⟩
  · intro file env read gathered
    constructor
    · exact load_of_not_decodes read gathered
    · intro c decodes
      constructor
      · exact load_of_withinBounds read gathered decodes
      · exact load_of_not_withinBounds read gathered decodes
  · intro unread
    cases loaded : load document assignments with
    | error error => exact ⟨error, rfl⟩
    | ok c =>
      obtain ⟨file, _, read, _⟩ := load_eq_ok_iff.mp loaded
      rw [unread] at read
      cases read

/-- Two windows, and a delay profile as a row. -/
def windows : String :=
  "[decision]\nhistory_recency_hours = 24\nproper_max_file_age_days = 14\n" ++
    "delay_profiles = [[5, [], 'torrent', 0, 60, false, false, 0]]"

def recency (hours : String) : String × String := ("GAMARR_DECISION__HISTORY_RECENCY_HOURS", hours)

def json : String × String := ("GAMARR_TELEMETRY__JSON", "true")

def windowed : Configuration where
  telemetry := ⟨"info", true⟩
  policy :=
    { Policy.default with
      historyRecencyHours := 48
      properMaxFileAgeDays := 14
      delayProfiles := [⟨5, [], .torrent, 0, 60, false, false, 0⟩] }

def windowless : Configuration :=
  { default with policy := { Policy.default with historyRecencyHours := 0 } }

/-- The environment overrides one window of the document and leaves the other. A window of no hours
reads, but is out of bounds. -/
theorem load_layered_windows :
    (load (some windows) [recency "48", json] = .ok windowed ∧
      Assigns [recency "48", json] .policy "history_recency_hours" (.int 48) ∧
      ∃ file env, document? (some windows) = some file ∧
        environment [recency "48", json] = .ok env ∧
        Section.policy.valueIn? "history_recency_hours" env = some (.int 48) ∧
        Layered file env windowed ∧ windowed.policy.WithinBounds) ∧
    ∃ env, environment [recency "0"] = .ok env ∧ Decodes (.record []) env windowless ∧
      ¬ windowless.policy.WithinBounds ∧
      ∃ error, load none [recency "0"] = .error (.invalid error) := by
  constructor
  · have loaded : load (some windows) [recency "48", json] = .ok windowed := by decide +kernel
    have leaves : LeavesOut [json] .policy "history_recency_hours" := by
      intro a mem names d named _
      obtain rfl := List.mem_singleton.mp mem
      have own : Variable.names? variableMark json.1 = some ["telemetry", "json"] := by
        decide +kernel
      obtain rfl := Option.some.inj (own.symm.trans named)
      apply Section.Says.nothing
      unfold Section.Concerns
      decide
    have assigns : Assigns [recency "48", json] .policy "history_recency_hours" (.int 48) :=
      ⟨[], _, "48", [json], _, .int 48, rfl, by decide +kernel, rfl, .own _, leaves⟩
    obtain ⟨file, env, read, gathered, gathers, layered, within⟩ :=
      (load_layered (some windows) [recency "48", json]).1 windowed loaded
    exact ⟨loaded, assigns, file, env, read, gathered, gathers.assigned _ _ _ assigns nofun,
      layered, within⟩
  · have gathered : environment [recency "0"] =
        .ok (.record [("decision", .record [("history_recency_hours", .int 0)])]) := rfl
    have decodes : Decodes (.record [])
        (.record [("decision", .record [("history_recency_hours", .int 0)])]) windowless := by
      unfold Decodes
      decide +kernel
    have outside : ¬ windowless.policy.WithinBounds := by
      intro within
      exact absurd within.recency (by decide)
    have refused := ((load_layered none [recency "0"]).2.1 _ _ rfl gathered).2 windowless decodes
    exact ⟨_, gathered, decodes, outside, refused.2 outside⟩

end Configuration

end ReleaseSelection
