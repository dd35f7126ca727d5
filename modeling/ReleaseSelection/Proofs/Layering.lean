import Mathlib.Data.List.Forall2
import ReleaseSelection.Proofs.NullFree
import ReleaseSelection.Proofs.Splitting

/-!
# Settings in layers

Records of two layers are merged member by member; anything else in the upper layer replaces what
is below it. So a setting with a single value has that of the highest layer that has one
(`Configuration.inForce?_of_leaf`). Since nothing in a layer is null, a single value is read from
its own form only (`Scalar`), and a configuration shows the values that were in force when it was
read (`Configuration.layered_of_read`).
-/

namespace ReleaseSelection

/-! ## Members of layers -/

section
variable {α β : Type} [DecidableEq α] {names : List α} {row : List β} {name key : α}

theorem lookup_cons_of_ne {other : α} (ne : name ≠ other) (b : β) (ms : List (α × β)) :
    ((other, b) :: ms).lookup name = ms.lookup name := by
  rw [List.lookup_cons, beq_false_of_ne ne]

theorem lookup_filter_fst {p : α → Bool} (kept : p name) (ms : List (α × β)) :
    (ms.filter fun m => p m.1).lookup name = ms.lookup name := by
  induction ms with
  | nil => rfl
  | cons m ms ih =>
    obtain ⟨other, b⟩ := m
    rw [List.filter_cons]
    by_cases same : name = other
    · subst same
      rw [if_pos kept, List.lookup_cons_self, List.lookup_cons_self]
    · rw [lookup_cons_of_ne same, ← ih]
      split
      · exact lookup_cons_of_ne same b _
      · rfl

theorem lookup_mapAt (f : β → β) (ms : List (α × β)) :
    (ms.map fun m => if m.1 = key then (m.1, f m.2) else m).lookup name =
      (ms.lookup name).map fun b => if name = key then f b else b := by
  induction ms with
  | nil => rfl
  | cons m ms ih =>
    obtain ⟨other, b⟩ := m
    rw [List.map_cons]
    by_cases same : name = other
    · subst same
      by_cases changed : name = key <;> simp [changed]
    · rw [lookup_cons_of_ne same, ← ih]
      by_cases changed : other = key
      · rw [if_pos changed, lookup_cons_of_ne same]
      · rw [if_neg changed, lookup_cons_of_ne same]

/-- A change of one place of a row is a change of what the row has under the name of that place. -/
theorem lookup_zip_modify (nodup : names.Nodup) (i : Nat) (f : β → β) :
    (names.zip (row.modify i f)).lookup name =
      ((names.zip row).lookup name).map fun b => if names[i]? = some name then f b else b := by
  induction names generalizing row i with
  | nil => rfl
  | cons first names ih =>
    obtain ⟨fresh, others⟩ := List.nodup_cons.mp nodup
    cases row with
    | nil => cases i <;> rfl
    | cons b row =>
      by_cases same : name = first
      · subst same
        cases i with
        | zero => simp
        | succ i =>
          have later : names[i]? ≠ some name := fun found => fresh (List.mem_of_getElem? found)
          simp [later]
      · rw [List.zip_cons_cons, lookup_cons_of_ne same]
        cases i with
        | zero =>
          simp [lookup_cons_of_ne same, Ne.symm same]
        | succ i =>
          rw [List.modify_succ_cons, List.zip_cons_cons, lookup_cons_of_ne same, ih others]
          rfl

end

namespace Data

variable {names : List String} {name : String}

/-- A value of a lower layer, if there is one, under one of an upper layer. -/
def stack : Option Data → Option Data → Option Data
  | some lower, some upper => some (merge lower upper)
  | some lower, none => some lower
  | none, upper => upper

theorem lookup_merge (lower upper : List (String × Data)) (name : String) :
    (mergeMembers lower upper ++ upper.filter fun m => (lower.lookup m.1).isNone).lookup name =
      stack (lower.lookup name) (upper.lookup name) := by
  rw [List.lookup_append, lookup_mergeMembers]
  cases below : lower.lookup name with
  | none =>
    rw [lookup_filter_fst (p := fun key => (lower.lookup key).isNone) (by rw [below]; rfl)]
    rfl
  | some d => cases upper.lookup name <;> rfl

theorem member?_merge {lower upper : Data} (low : lower.IsRecord) (up : upper.IsRecord)
    (name : String) :
    (merge lower upper).member? name = stack (lower.member? name) (upper.member? name) := by
  obtain ⟨ls, rfl⟩ := low
  obtain ⟨us, rfl⟩ := up
  rw [merge]
  exact lookup_merge ls us name

/-- What a record has under a name, or a row at the place of the name. -/
def part? (names : List String) (name : String) : Data → Option Data
  | .record members => members.lookup name
  | .list row => (names.zip row).lookup name
  | _ => none

/-- It has no members that could come from different layers. -/
def IsLeaf (d : Data) : Prop := ∀ members, d ≠ .record members

/-- Only a record is put together of both layers. -/
theorem or_of_stack {lower upper : Option Data} {d : Data} (found : stack lower upper = some d)
    (leaf : d.IsLeaf) : upper.or lower = some d := by
  cases lower with
  | none =>
    rw [Option.or_none]
    exact found
  | some low =>
    cases upper with
    | none => exact found
    | some up =>
      obtain rfl := Option.some.inj found
      rcases merge_eq_upper low up with same | ⟨ls, us, rfl, rfl⟩
      · rw [same]
        rfl
      · rw [merge] at leaf
        exact absurd rfl (leaf _)

theorem stack_none (lower : Option Data) : stack lower none = lower := by
  cases lower <;> rfl

theorem stack_leaf (lower : Option Data) {leaf : Data} (isLeaf : leaf.IsLeaf) :
    stack lower (some leaf) = some leaf := by
  cases lower with
  | none => rfl
  | some low =>
    rcases merge_eq_upper low leaf with same | ⟨_, members, _, form⟩
    · rw [stack, same]
    · exact absurd form (isLeaf members)

/-- Records are stacked member by member. -/
theorem stack_records {lower upper : Option Data} (low : ∀ d ∈ lower, d.IsRecord)
    (up : ∀ d ∈ upper, d.IsRecord) (names : List String) (name : String) :
    (∀ d ∈ stack lower upper, d.IsRecord) ∧
    (stack lower upper).bind (part? names name) =
      stack (lower.bind (part? names name)) (upper.bind (part? names name)) := by
  cases lower with
  | none => exact ⟨up, rfl⟩
  | some l =>
    cases upper with
    | none => exact ⟨low, (stack_none _).symm⟩
    | some u =>
      obtain ⟨ls, rfl⟩ := low l rfl
      obtain ⟨us, rfl⟩ := up u rfl
      constructor
      · rintro _ ⟨⟩
        exact IsRecord.merge ⟨ls, rfl⟩ ⟨us, rfl⟩
      · rw [stack, merge]
        exact lookup_merge ls us name

/-- A single value in a record stays, whatever the record is stacked on. -/
theorem stack_record_leaf (lower : Option Data) {upper leaf : Data} (up : upper.IsRecord)
    (found : upper.part? names name = some leaf) (isLeaf : leaf.IsLeaf) :
    ∃ d, stack lower (some upper) = some d ∧ d.IsRecord ∧ d.part? names name = some leaf := by
  cases lower with
  | none => exact ⟨upper, rfl, up, found⟩
  | some low =>
    refine ⟨merge low upper, rfl, ?_⟩
    rcases merge_eq_upper low upper with same | ⟨ls, us, rfl, rfl⟩
    · rw [same]
      exact ⟨up, found⟩
    · refine ⟨IsRecord.merge ⟨ls, rfl⟩ ⟨us, rfl⟩, ?_⟩
      rw [merge, part?, lookup_merge, show us.lookup name = some leaf from found]
      exact stack_leaf _ isLeaf

theorem or_part?_of_stack {lower upper : Option Data} {d : Data}
    (found : (stack lower upper).bind (part? names name) = some d) (leaf : d.IsLeaf) :
    (upper.bind (part? names name)).or (lower.bind (part? names name)) = some d := by
  cases lower with
  | none =>
    rw [Option.bind_none, Option.or_none]
    exact found
  | some low =>
    cases upper with
    | none => exact found
    | some up =>
      rcases merge_eq_upper low up with same | ⟨ls, us, rfl, rfl⟩
      · rw [stack, same] at found
        rw [found]
        rfl
      · rw [stack, merge, Option.bind_some, part?, lookup_merge] at found
        exact or_of_stack found leaf

end Data

/-! ## Reading -/

theorem Members.lookup_pairs {names : List String} {d : Data} {m : Members}
    (given : Members.of? names d = some m) (name : String) :
    m.pairs.lookup name = d.part? names name := by
  unfold Members.of? at given
  split at given
  · split at given
    · obtain rfl := Option.some.inj given
      rfl
    · cases given
  · split at given
    · obtain rfl := Option.some.inj given
      rfl
    · cases given
  · cases given

theorem Data.NullFree.of_part? {names : List String} {name : String} {d e : Data}
    (free : d.NullFree) (found : d.part? names name = some e) : e.NullFree := by
  cases d with
  | record members => exact .of_lookup free.members found
  | list row =>
    obtain ⟨before, after, split, _⟩ := List.lookup_eq_some_iff.mp found
    have mem : (name, e) ∈ names.zip row := by
      rw [split]
      exact List.mem_append_right before List.mem_cons_self
    exact free.items e (List.of_mem_zip mem).2
  | _ => cases found

theorem Data.NullFreeRecord.of_member? {name : String} {d e : Data} (free : d.NullFreeRecord)
    (found : d.member? name = some e) : e.NullFree := by
  obtain ⟨⟨members, rfl⟩, nullFree⟩ := free
  exact .of_lookup nullFree.members found

/-- A type of single values: they are told by their forms, as far as nothing is null. -/
class Scalar (α : Type) [DataForm α] : Prop where
  form {d : Data} {a : α} : d.NullFree → ofData? d = some a → d = toData a
  leaf (a : α) : (toData a).IsLeaf

instance : Scalar Bool where
  form {d} _ _ read := by
    cases d with
    | bool b =>
      obtain rfl := Option.some.inj read
      rfl
    | _ => cases read
  leaf _ := nofun

instance : Scalar String where
  form {d} _ _ read := by
    cases d with
    | text s =>
      obtain rfl := Option.some.inj read
      rfl
    | _ => cases read
  leaf _ := nofun

instance {lo hi : Int} : Scalar (Bounded lo hi) where
  form {d} _ _ read := by
    cases d with
    | int n =>
      obtain rfl := Bounded.ofInt?_eq_some_iff.mp read
      rfl
    | _ => cases read
  leaf _ := nofun

instance {α : Type} [Named α] : Scalar α where
  form {d a} free read := by
    have named {s : String} (found : Named.ofName? s = some a) : Named.name a = s := by
      simpa using List.find?_some found
    simp only [ofData?] at read
    split at read
    · rw [← named read]
      rfl
    · rename_i s
      cases free.members (s, .null) (List.mem_singleton.mpr rfl)
    · cases read
  leaf _ := nofun

/-- Two layers have one single value for a setting. -/
def SharesLeaf (names : List String) (name : String) (d e : Data) : Prop :=
  ∃ leaf, leaf.IsLeaf ∧ d.part? names name = some leaf ∧ e.part? names name = some leaf

/-- A member that is a single value is read from its form. -/
theorem Members.sharesLeaf {α : Type} [DataForm α] [Scalar α] {names : List String}
    {name : String} {d given written : Data} {m : Members} {a : α} (free : d.NullFree)
    (same : given.part? names name = d.part? names name)
    (members : Members.of? names given = some m) (read : m.required name = some a)
    (form : written.part? names name = some (toData a)) :
    SharesLeaf names name d written := by
  obtain ⟨e, found, read⟩ := Option.bind_eq_some_iff.mp read
  rw [Members.lookup_pairs members, same] at found
  rw [Scalar.form (free.of_part? found) read] at found
  exact ⟨toData a, Scalar.leaf a, found, form⟩

namespace Configuration

theorem zip_take (names : List String) (row : List Data) :
    names.zip (row.take names.length) = names.zip row := by
  induction names generalizing row with
  | nil => rfl
  | cons name names ih =>
    cases row with
    | nil => rfl
    | cons d row =>
      rw [List.length_cons, List.take_succ_cons, List.zip_cons_cons, List.zip_cons_cons, ih]

/-- What is cut off a row has no name. -/
theorem part?_cutRow (names : List String) (name : String) (d : Data) :
    (cutRow names d).part? names name = d.part? names name := by
  cases d with
  | list row => rw [cutRow, Data.part?, Data.part?, zip_take]
  | _ => rfl

theorem part?_cutPolicy (name : String) (d : Data) :
    (cutPolicy d).part? Policy.settings name =
      (d.part? Policy.settings name).map fun e =>
        if name = "delay_profiles" then cutDelayProfiles e else e := by
  cases d with
  | list row =>
    have last : Policy.settings[Policy.settings.length - 1]? = some name ↔
        name = "delay_profiles" := Option.some_inj.trans eq_comm
    show (Policy.settings.zip _).lookup name = _
    rw [lookup_zip_modify (by decide), zip_take]
    simp only [last]
    rfl
  | record members => exact lookup_mapAt cutDelayProfiles members
  | _ => rfl

variable {d : Data} {p : Policy} {t : Telemetry}

theorem settings_telemetry (free : d.NullFree)
    (read : ofData? (cutRow Telemetry.settings d) = some t) :
    ∀ name ∈ Telemetry.settings, SharesLeaf Telemetry.settings name d (toData t) := by
  obtain ⟨m, members, read⟩ := Option.bind_eq_some_iff.mp read
  obtain ⟨level, readLevel, read⟩ := Option.bind_eq_some_iff.mp read
  obtain ⟨json, readJson, read⟩ := Option.bind_eq_some_iff.mp read
  obtain rfl := Option.some.inj read
  simp only [Telemetry.settings, List.forall_mem_cons]
  refine ⟨?_, ?_, List.forall_mem_nil _⟩
  · exact Members.sharesLeaf free (part?_cutRow _ _ d) members readLevel rfl
  · exact Members.sharesLeaf free (part?_cutRow _ _ d) members readJson rfl

theorem settings_policy (free : d.NullFree) (read : ofData? (cutPolicy d) = some p) :
    (∀ name ∈ Policy.settings, name ≠ "delay_profiles" →
      SharesLeaf Policy.settings name d (toData p)) ∧
    ∃ rows, d.part? Policy.settings "delay_profiles" = some (.list rows) ∧
      rows.Forall₂ (fun row profile => ofData? (cutRow DelayProfile.settings row) = some profile)
        p.delayProfiles := by
  obtain ⟨m, members, read⟩ := Option.bind_eq_some_iff.mp read
  obtain ⟨propers, readPropers, read⟩ := Option.bind_eq_some_iff.mp read
  obtain ⟨handling, readHandling, read⟩ := Option.bind_eq_some_iff.mp read
  obtain ⟨flags, readFlags, read⟩ := Option.bind_eq_some_iff.mp read
  obtain ⟨ceiling, readCeiling, read⟩ := Option.bind_eq_some_iff.mp read
  obtain ⟨recency, readRecency, read⟩ := Option.bind_eq_some_iff.mp read
  obtain ⟨age, readAge, read⟩ := Option.bind_eq_some_iff.mp read
  obtain ⟨concurrency, readConcurrency, read⟩ := Option.bind_eq_some_iff.mp read
  obtain ⟨timeout, readTimeout, read⟩ := Option.bind_eq_some_iff.mp read
  obtain ⟨profiles, readProfiles, read⟩ := Option.bind_eq_some_iff.mp read
  obtain rfl := Option.some.inj read
  constructor
  · have uncut {name : String} (single : name ≠ "delay_profiles") :
        (cutPolicy d).part? Policy.settings name = d.part? Policy.settings name := by
      rw [part?_cutPolicy]
      simp only [if_neg single, Option.map_id']
    simp only [Policy.settings, List.forall_mem_cons]
    refine ⟨?_, ?_, ?_, ?_, ?_, ?_, ?_, ?_, fun single => absurd rfl single,
      List.forall_mem_nil _⟩
    all_goals intro single
    · exact Members.sharesLeaf free (uncut single) members readPropers rfl
    · exact Members.sharesLeaf free (uncut single) members readHandling rfl
    · exact Members.sharesLeaf free (uncut single) members readFlags rfl
    · exact Members.sharesLeaf free (uncut single) members readCeiling rfl
    · exact Members.sharesLeaf free (uncut single) members readRecency rfl
    · exact Members.sharesLeaf free (uncut single) members readAge rfl
    · exact Members.sharesLeaf free (uncut single) members readConcurrency rfl
    · exact Members.sharesLeaf free (uncut single) members readTimeout rfl
  · obtain ⟨cut, found, read⟩ := Option.bind_eq_some_iff.mp readProfiles
    rw [Members.lookup_pairs members, part?_cutPolicy] at found
    obtain ⟨e, held, rfl⟩ := Option.map_eq_some_iff.mp found
    rw [if_pos rfl] at read
    cases e with
    | list rows =>
      have listed : (rows.map (cutRow DelayProfile.settings)).mapM ofData? = some profiles := read
      rw [mapM_eq_some_iff, List.forall₂_map_left_iff] at listed
      exact ⟨rows, held, listed⟩
    | _ => cases read

/-! ## Settings in force -/

/-- A part of the configuration, and its settings in the order of a row. -/
structure Section where
  name : String
  settings : List String

namespace Section

def telemetry : Section := ⟨"telemetry", Telemetry.settings⟩

def policy : Section := ⟨"decision", Policy.settings⟩

/-- What a layer has for a setting. -/
def valueIn? (s : Section) (setting : String) (layer : Data) : Option Data :=
  (layer.member? s.name).bind (Data.part? s.settings setting)

end Section

variable {file env : Data} {c : Configuration} {s : Section} {setting : String}

/-- What the environment has for a setting, else the document, else the defaults. -/
def inForce? (file env : Data) (s : Section) (setting : String) : Option Data :=
  (s.valueIn? setting env).or ((s.valueIn? setting file).or (s.valueIn? setting (toData default)))

theorem nullFreeRecord_default : (toData default).NullFreeRecord := by
  refine ⟨⟨_, rfl⟩, .record (List.forall_mem_cons.mpr
    ⟨.record ?_, List.forall_mem_singleton.mpr (.record ?_)⟩)⟩
  · simp only [List.forall_mem_cons]
    exact ⟨.text _, .bool _, List.forall_mem_nil _⟩
  · simp only [List.forall_mem_cons]
    exact ⟨.text _, .bool _, .bool _, .text _, .int _, .int _, .int _, .int _,
      .list (List.forall_mem_nil _), List.forall_mem_nil _⟩

theorem nullFreeRecord_settings (fileFree : file.NullFreeRecord) (envFree : env.NullFreeRecord) :
    (settings file env).NullFreeRecord := by
  apply Data.nullFreeRecord_overlay
  simp only [List.forall_mem_cons]
  exact ⟨nullFreeRecord_default, fileFree, envFree, List.forall_mem_nil _⟩

theorem member?_settings (fileFree : file.NullFreeRecord) (envFree : env.NullFreeRecord)
    (name : String) : (settings file env).member? name =
      Data.stack (Data.stack ((toData default).member? name) (file.member? name))
        (env.member? name) := by
  have empty : (Data.record []).NullFreeRecord := ⟨⟨[], rfl⟩, .record (List.forall_mem_nil _)⟩
  have defaults := empty.merge nullFreeRecord_default
  show (Data.merge (Data.merge (Data.merge _ _) _) _).member? name = _
  rw [Data.member?_merge (defaults.merge fileFree).isRecord envFree.isRecord,
    Data.member?_merge defaults.isRecord fileFree.isRecord,
    Data.member?_merge empty.isRecord nullFreeRecord_default.isRecord]
  rfl

/-- A single value comes from the highest layer that has one. -/
theorem inForce?_of_leaf (fileFree : file.NullFreeRecord) (envFree : env.NullFreeRecord) {d : Data}
    (found : s.valueIn? setting (settings file env) = some d) (leaf : d.IsLeaf) :
    inForce? file env s setting = some d := by
  rw [Section.valueIn?, member?_settings fileFree envFree] at found
  have top := Data.or_part?_of_stack found leaf
  rw [inForce?]
  cases upper : s.valueIn? setting env with
  | some e =>
    rw [Section.valueIn?] at upper
    rw [upper] at top
    exact top
  | none =>
    rw [Section.valueIn?] at upper
    rw [upper, Option.none_or] at top
    exact Data.or_part?_of_stack top leaf

theorem member?_mapMember (f : Data → Data) (key name : String) (d : Data) :
    (d.mapMember key f).member? name =
      (d.member? name).map fun e => if name = key then f e else e := by
  cases d with
  | record members => exact lookup_mapAt f members
  | _ => rfl

theorem member?_cutRows (d : Data) :
    (cutRows d).member? "telemetry" = (d.member? "telemetry").map (cutRow Telemetry.settings) ∧
    (cutRows d).member? "decision" = (d.member? "decision").map cutPolicy := by
  constructor
  all_goals
    rw [cutRows, member?_mapMember, member?_mapMember, Option.map_map]
    rfl

theorem sections_of_read {d : Data} (free : d.NullFreeRecord)
    (read : ofData? (cutRows d) = some c) :
    (∃ e, d.member? "telemetry" = some e ∧
      ofData? (cutRow Telemetry.settings e) = some c.telemetry) ∧
    ∃ e, d.member? "decision" = some e ∧ ofData? (cutPolicy e) = some c.policy := by
  obtain ⟨m, members, read⟩ := Option.bind_eq_some_iff.mp read
  obtain ⟨telemetry, readTelemetry, read⟩ := Option.bind_eq_some_iff.mp read
  obtain ⟨policy, readPolicy, read⟩ := Option.bind_eq_some_iff.mp read
  obtain rfl := Option.some.inj read
  have pairs (name : String) : m.pairs.lookup name = (cutRows d).member? name := by
    rw [Members.lookup_pairs members]
    obtain ⟨ms, rfl⟩ := free.isRecord
    rfl
  have uncut {α : Type} [DataForm α] {name : String} {cut : Data → Data} {a : α}
      (cuts : (cutRows d).member? name = (d.member? name).map cut)
      (read : m.required name = some a) :
      ∃ e, d.member? name = some e ∧ ofData? (cut e) = some a := by
    obtain ⟨_, found, read⟩ := Option.bind_eq_some_iff.mp read
    rw [pairs, cuts] at found
    obtain ⟨e, held, rfl⟩ := Option.map_eq_some_iff.mp found
    exact ⟨e, held, read⟩
  obtain ⟨telemetryCut, policyCut⟩ := member?_cutRows d
  exact ⟨uncut telemetryCut readTelemetry, uncut policyCut readPolicy⟩

/-- What the settings of a configuration come from. -/
structure Layered (file env : Data) (c : Configuration) : Prop where
  /-- Each single value is that of the highest layer that has one. -/
  single : ∀ s ∈ [Section.telemetry, Section.policy], ∀ setting ∈ s.settings,
    setting ≠ "delay_profiles" → s.valueIn? setting (toData c) = inForce? file env s setting
  /-- The highest layer with a list of delay profiles has all of them. -/
  delays : ∃ rows, inForce? file env .policy "delay_profiles" = some (.list rows) ∧
    rows.Forall₂ (fun row profile => ofData? (cutRow DelayProfile.settings row) = some profile)
      c.policy.delayProfiles

theorem layered_of_read (fileFree : file.NullFreeRecord) (envFree : env.NullFreeRecord)
    (read : ofData? (cutRows (settings file env)) = some c) : Layered file env c := by
  have free := nullFreeRecord_settings fileFree envFree
  obtain ⟨⟨t, heldTelemetry, readTelemetry⟩, p, heldPolicy, readPolicy⟩ :=
    sections_of_read free read
  have telemetry := settings_telemetry (free.of_member? heldTelemetry) readTelemetry
  obtain ⟨single, rows, profiles, listed⟩ :=
    settings_policy (free.of_member? heldPolicy) readPolicy
  have shared {s : Section} {d e : Data} {setting : String}
      (held : (settings file env).member? s.name = some d)
      (written : (toData c).member? s.name = some e) (shares : SharesLeaf s.settings setting d e) :
      s.valueIn? setting (toData c) = inForce? file env s setting := by
    obtain ⟨leaf, isLeaf, below, above⟩ := shares
    have found : s.valueIn? setting (settings file env) = some leaf := by
      rw [Section.valueIn?, held]
      exact below
    rw [inForce?_of_leaf fileFree envFree found isLeaf, Section.valueIn?, written]
    exact above
  constructor
  · simp only [List.forall_mem_cons]
    refine ⟨?_, ?_, List.forall_mem_nil _⟩
    · intro setting known _
      exact shared heldTelemetry rfl (telemetry setting known)
    · intro setting known scalar
      exact shared heldPolicy rfl (single setting known scalar)
  · refine ⟨rows, inForce?_of_leaf fileFree envFree ?_ nofun, listed⟩
    rw [Section.valueIn?, show Section.policy.name = "decision" from rfl, heldPolicy]
    exact profiles

end Configuration

end ReleaseSelection
