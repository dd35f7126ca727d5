import Mathlib.Data.List.Nodup
import ReleaseSelection.Fixture
import ReleaseSelection.Proofs.Dates
import ReleaseSelection.Proofs.Documents
import ReleaseSelection.Proofs.Rating

/-!
# The forms of the records

Every record of a fixture is read back from its form as data, with the members that it has and
those that are missing, if the dates in it are plain (`Fixture.faithful`). Documents can hold the
form if the numerals of the sizes in it are read back (`Fixture.writable`). So a fixture that is
written down is read back as itself (`Fixture.ofData?_read?_text`).
-/

namespace ReleaseSelection

/-! ## Forms in general -/

/-- Every value of the type is read back from its form. -/
class Lossless (α : Type) [DataForm α] : Prop where
  faithful (a : α) : Faithful a

/-- No value of the type has the form of a missing one. -/
class Present (α : Type) [DataForm α] : Prop where
  ne_null (a : α) : toData a ≠ .null

/-- Documents can hold every value of the type. -/
class Expressible (α : Type) [DataForm α] : Prop where
  writable (digits : Float → Numeral) (a : α) : Json.Writable digits (toData a)

/-- The values are told apart by their names. -/
class LawfulNamed (α : Type) [Named α] : Prop where
  ofName?_name (a : α) : Named.ofName? (Named.name a) = some a

section
variable {α : Type} [DataForm α]

theorem Faithful.read {a : α} (faithful : Faithful a) : ofData? (toData a) = some a := faithful

@[simp]
theorem ofData?_toData [Lossless α] (a : α) : ofData? (toData a) = some a := Lossless.faithful a

theorem faithful_option [Present α] {o : Option α} (faithful : ∀ a ∈ o, Faithful a) :
    Faithful o := by
  cases o with
  | none => rfl
  | some a =>
    -- The form is not that of a missing value, which is left to the reader of the type.
    have present := Present.ne_null a
    have read := (faithful a rfl).read
    simp only [Faithful, toData, ofData?]
    rw [read]
    rfl

theorem writable_list {digits : Float → Numeral} {as : List α}
    (writable : ∀ a ∈ as, Json.Writable digits (toData a)) : Json.Writable digits (toData as) := by
  apply Json.Writable.list
  intro d mem
  obtain ⟨a, own, rfl⟩ := List.mem_map.mp mem
  exact writable a own

theorem writable_option {digits : Float → Numeral} {o : Option α}
    (writable : ∀ a ∈ o, Json.Writable digits (toData a)) : Json.Writable digits (toData o) := by
  cases o with
  | none => exact .null
  | some a => exact writable a rfl

instance [Lossless α] : Lossless (List α) := ⟨fun _ => faithful_list fun a _ => Lossless.faithful a⟩

instance [Expressible α] : Expressible (List α) :=
  ⟨fun digits _ => writable_list fun a _ => Expressible.writable digits a⟩

instance [Lossless α] [Present α] : Lossless (Option α) :=
  ⟨fun _ => faithful_option fun a _ => Lossless.faithful a⟩

instance [Expressible α] : Expressible (Option α) :=
  ⟨fun digits _ => writable_option fun a _ => Expressible.writable digits a⟩

theorem ne_null_of_record {a : α} {pairs : List (String × Data)} (form : toData a = .record pairs) :
    toData a ≠ .null := by
  rw [form]
  nofun

namespace Members

variable (pairs : List (String × Data)) (name : String)

@[simp]
theorem lookup_cons_eq (other : String) (d : Data) :
    ((other, d) :: pairs).lookup name = if name = other then some d else pairs.lookup name := by
  by_cases same : name = other
  · simp [same]
  · simp [List.lookup_cons, same, beq_false_of_ne same]

@[simp]
theorem required_mk :
    (mk pairs true).required name = (pairs.lookup name).bind (ofData? : Data → Option α) :=
  rfl

@[simp]
theorem optional_mk : (mk pairs true).optional name =
    ((pairs.lookup name).elim (some none) ofData? : Option (Option α)) := by
  cases h : pairs.lookup name <;> simp [optional, h]

@[simp]
theorem defaulted_mk (default : α) :
    (mk pairs true).defaulted name default = (pairs.lookup name).elim (some default) ofData? := by
  cases h : pairs.lookup name <;> simp [defaulted, h]

end Members

/-- A record whose names differ is read by its members. -/
theorem faithful_of_members {a : α} {names : List String} {pairs : List (String × Data)}
    {read : Members → Option α} (form : toData a = .record pairs)
    (reader : (ofData? : Data → Option α) (.record pairs) =
      (Members.of? names (.record pairs)).bind read)
    (same : pairs.map (·.1) = names) (nodup : names.Nodup) (reads : read ⟨pairs, true⟩ = some a) :
    Faithful a := by
  -- Names that differ are each found at most once.
  have once : names.all fun name => (pairs.filter (·.1 == name)).length ≤ 1 := by
    rw [List.all_eq_true]
    intro name _
    have count := List.nodup_iff_count_le_one.mp nodup name
    rw [← same, List.count, List.countP_map, List.countP_eq_length_filter] at count
    exact decide_eq_true count
  rw [Faithful, form, reader, Members.of?, if_pos once]
  exact reads

end

/-! ## Basic values -/

section
variable {α : Type} [Named α]

instance [LawfulNamed α] : Lossless α := ⟨LawfulNamed.ofName?_name⟩

instance : Expressible α := ⟨fun _ _ => .text _⟩

end

instance : Lossless Bool := ⟨faithful_bool⟩
instance : Expressible Bool := ⟨fun _ b => .bool b⟩

instance : Lossless String := ⟨faithful_string⟩
instance : Present String := ⟨nofun⟩
instance : Expressible String := ⟨fun _ s => .text s⟩

instance : Lossless Float := ⟨faithful_float⟩
instance : Present Float := ⟨nofun⟩

instance : Lossless Uuid := ⟨faithful_uuid⟩
instance : Present Uuid := ⟨nofun⟩
instance : Expressible Uuid := ⟨fun _ u => .text u.text⟩

instance : Present Instant := ⟨nofun⟩
instance : Expressible Instant := ⟨fun _ t => .text t.text⟩

instance {lo hi : Int} : Lossless (Bounded lo hi) := ⟨faithful_bounded⟩
instance {lo hi : Int} : Present (Bounded lo hi) := ⟨nofun⟩

theorem Bounded.writable {lo hi : Int} (digits : Float → Numeral)
    (lo_le : -9223372036854775808 ≤ lo) (le_hi : hi ≤ 18446744073709551615) (a : Bounded lo hi) :
    Json.Writable digits (toData a) :=
  .int (Int.le_trans lo_le a.lo_le) (Int.le_trans a.le_hi le_hi)

instance : Expressible Score := ⟨fun digits => Bounded.writable digits (by decide) (by decide)⟩
instance : Expressible Count := ⟨fun digits => Bounded.writable digits (by decide) (by decide)⟩
instance : Expressible Size := ⟨fun digits => Bounded.writable digits (by decide) (by decide)⟩

instance : LawfulNamed Quality := ⟨fun q => by cases q <;> rfl⟩
instance : LawfulNamed Language := ⟨fun l => by cases l <;> rfl⟩
instance : LawfulNamed Platform := ⟨fun p => by cases p <;> rfl⟩
instance : LawfulNamed Protocol := ⟨fun p => by cases p <;> rfl⟩
instance : LawfulNamed Content := ⟨fun c => by cases c <;> rfl⟩
instance : LawfulNamed Flag := ⟨fun f => by cases f <;> rfl⟩
instance : LawfulNamed HistoryEvent := ⟨fun e => by cases e <;> rfl⟩
instance : LawfulNamed DownloadState := ⟨fun s => by cases s <;> rfl⟩

theorem Instant.faithful {t : Instant} (plain : t.IsPlain) : Faithful t := ofText?_text plain

/-! ## Records -/

instance : Lossless Format where
  faithful _ := faithful_of_members rfl rfl rfl (by decide) (by simp)

instance : Expressible Format := ⟨fun _ _ => .record (by simp [Expressible.writable])⟩

instance : Lossless ProfileItem where
  faithful _ := faithful_of_members rfl rfl rfl (by decide) (by simp)

instance : Expressible ProfileItem := ⟨fun _ _ => .record (by simp [Expressible.writable])⟩

instance : Lossless FormatWeight where
  faithful _ := faithful_of_members rfl rfl rfl (by decide) (by simp)

instance : Expressible FormatWeight := ⟨fun _ _ => .record (by simp [Expressible.writable])⟩

instance : Lossless Profile where
  faithful _ := faithful_of_members rfl rfl rfl (by decide) (by simp)

theorem Profile.writable {digits : Float → Numeral} {p : Profile}
    (finite : ∀ x ∈ p.preferredSize, x.isFinite)
    (back : ∀ x ∈ p.preferredSize, Json.ReadsBack digits x) : Json.Writable digits (toData p) := by
  have size : Json.Writable digits (toData p.preferredSize) :=
    writable_option fun x mem => .float (finite x mem) (back x mem)
  exact .record (by simp [Expressible.writable, size])

instance : Lossless Revision where
  faithful _ := faithful_of_members rfl rfl rfl (by decide) (by simp)

instance : Expressible Revision := ⟨fun _ _ => .record (by simp [Expressible.writable])⟩

instance : Lossless QualityModel where
  faithful _ := faithful_of_members rfl rfl rfl (by decide) (by simp)

instance : Expressible QualityModel := ⟨fun _ _ => .record (by simp [Expressible.writable])⟩

instance : Lossless GameVersion where
  faithful _ := faithful_of_members rfl rfl rfl (by decide) (by simp)

instance : Present GameVersion := ⟨fun _ => ne_null_of_record rfl⟩

instance : Expressible GameVersion := ⟨fun _ _ => .record (by simp [Expressible.writable])⟩

instance : Lossless ParsedTitle where
  faithful _ := faithful_of_members rfl rfl rfl (by decide) (by simp)

instance : Present ParsedTitle := ⟨fun _ => ne_null_of_record rfl⟩

instance : Expressible ParsedTitle := ⟨fun _ _ => .record (by simp [Expressible.writable])⟩

instance : Lossless QueueItem where
  faithful _ := faithful_of_members rfl rfl rfl (by decide) (by simp)

instance : Expressible QueueItem := ⟨fun _ _ => .record (by simp [Expressible.writable])⟩

instance : Lossless Indexer where
  faithful _ := faithful_of_members rfl rfl rfl (by decide) (by simp)

instance : Expressible Indexer := ⟨fun _ _ => .record (by simp [Expressible.writable])⟩

/-! ## Records with dates -/

theorem GameFile.faithful {f : GameFile} (plain : f.added.IsPlain) : Faithful f :=
  faithful_of_members rfl rfl rfl (by decide)
    (by simp [(Instant.faithful plain).read])

instance : Present GameFile := ⟨fun _ => ne_null_of_record rfl⟩

instance : Expressible GameFile := ⟨fun _ _ => .record (by simp [Expressible.writable])⟩

theorem Game.faithful {g : Game} (plain : ∀ file ∈ g.file, file.added.IsPlain) : Faithful g := by
  have file : Faithful g.file := faithful_option fun file mem => GameFile.faithful (plain file mem)
  exact faithful_of_members rfl rfl rfl (by decide) (by simp [file.read])

theorem Game.writable {digits : Float → Numeral} {g : Game}
    (finite : ∀ x ∈ g.profile.preferredSize, x.isFinite)
    (back : ∀ x ∈ g.profile.preferredSize, Json.ReadsBack digits x) :
    Json.Writable digits (toData g) :=
  .record (by simp [Expressible.writable, Profile.writable finite back])

theorem Release.faithful {r : Release} (plain : r.published.IsPlain) : Faithful r :=
  faithful_of_members rfl rfl rfl (by decide)
    (by simp [(Instant.faithful plain).read])

instance : Expressible Release := ⟨fun _ _ => .record (by simp [Expressible.writable])⟩

theorem HistoryEntry.faithful {h : HistoryEntry} (plain : h.date.IsPlain) : Faithful h :=
  faithful_of_members rfl rfl rfl (by decide)
    (by simp [(Instant.faithful plain).read])

instance : Expressible HistoryEntry := ⟨fun _ _ => .record (by simp [Expressible.writable])⟩

theorem BlockedRelease.faithful {b : BlockedRelease} (published : ∀ t ∈ b.published, t.IsPlain)
    (plain : b.date.IsPlain) : Faithful b := by
  have published : Faithful b.published :=
    faithful_option fun t mem => Instant.faithful (published t mem)
  exact faithful_of_members rfl rfl rfl (by decide)
    (by simp [published.read, (Instant.faithful plain).read])

instance : Expressible BlockedRelease := ⟨fun _ _ => .record (by simp [Expressible.writable])⟩

theorem Candidate.faithful {c : Candidate} (plain : c.release.published.IsPlain) : Faithful c :=
  faithful_of_members rfl rfl rfl (by decide)
    (by simp [(Release.faithful plain).read])

instance : Expressible Candidate := ⟨fun _ _ => .record (by simp [Expressible.writable])⟩

/-! ## Fixtures -/

namespace Fixture

variable {f : Fixture}

/-- The dates that a fixture holds, in its games, records and candidates. -/
def dates (f : Fixture) : List Instant :=
  f.games.filterMap (fun g => g.file.map (·.added)) ++ f.history.map (·.date) ++
    f.blocklist.flatMap (fun b => b.published.toList ++ [b.date]) ++
    f.candidates.map (·.release.published)

/-- The sizes that the profiles of the games prefer. -/
def sizes (f : Fixture) : List Float := f.games.filterMap (·.profile.preferredSize)

theorem faithful (plain : ∀ t ∈ f.dates, t.IsPlain) : Faithful f := by
  simp only [dates, List.forall_mem_append, List.forall_mem_map, List.mem_filterMap,
    List.mem_flatMap] at plain
  obtain ⟨⟨⟨games, history⟩, blocklist⟩, candidates⟩ := plain
  have games : Faithful f.games := faithful_list fun g mem => Game.faithful fun file own =>
    games file.added ⟨g, mem, by rw [own]; rfl⟩
  have history : Faithful f.history := faithful_list fun h mem =>
    HistoryEntry.faithful (history h mem)
  have blocklist : Faithful f.blocklist := faithful_list fun b mem =>
    BlockedRelease.faithful
      (fun t own => blocklist t ⟨b, mem, List.mem_append_left _ (Option.mem_toList.mpr own)⟩)
      (blocklist b.date ⟨b, mem, List.mem_append_right _ (List.mem_singleton_self _)⟩)
  have candidates : Faithful f.candidates := faithful_list fun c mem =>
    Candidate.faithful (candidates c mem)
  exact faithful_of_members rfl rfl rfl (by decide)
    (by simp [games.read, history.read, blocklist.read, candidates.read])

section
variable {digits : Float → Numeral} (finite : ∀ x ∈ f.sizes, x.isFinite)
  (back : ∀ x ∈ f.sizes, Json.ReadsBack digits x)
include finite back

theorem writable : Json.Writable digits (toData f) := by
  have games : Json.Writable digits (toData f.games) := writable_list fun g mem =>
    have size {x : Float} (own : x ∈ g.profile.preferredSize) : x ∈ f.sizes :=
      List.mem_filterMap.mpr ⟨g, mem, own⟩
    Game.writable (fun x own => finite x (size own)) fun x own => back x (size own)
  exact .record (by simp [Expressible.writable, games])

end

/-- The document of a fixture. -/
def text (layout : Json.Layout) (digits : Float → Numeral) (f : Fixture) : String :=
  String.ofList (Json.write layout digits 0 (toData f))

theorem check_eq_ok_iff : f.check = .ok f ↔ ∀ game ∈ f.games, game.violations = [] := by
  have valid : f.invalidGame? = none ↔ ∀ game ∈ f.games, game.violations = [] := by
    simp [invalidGame?]
  rw [← valid, check]
  cases f.invalidGame? <;> simp

/-- **A fixture that is written down is read back as itself, whatever the layout, and is taken
exactly if each of its games is valid.** -/
theorem ofData?_read?_text (layout : Json.Layout) (digits : Float → Numeral) (f : Fixture)
    (plain : ∀ t ∈ f.dates, t.IsPlain) (finite : ∀ x ∈ f.sizes, x.isFinite)
    (back : ∀ x ∈ f.sizes, Json.ReadsBack digits x) :
    (Json.read? (f.text layout digits)).bind ofData? = some f ∧
      (read (f.text layout digits) = .ok f ↔ ∀ game ∈ f.games, game.violations = []) := by
  have document : Json.read? (f.text layout digits) = some (toData f) :=
    Json.read?_write layout (writable finite back)
  have form : (ofData? (toData f) : Option Fixture) = some f := (faithful plain).read
  refine ⟨by rw [document]; exact form, ?_⟩
  simp only [read, document, ofData, form]
  exact check_eq_ok_iff

end Fixture

/-! ### A small fixture -/

/-- A release of January 2024, half a second past a minute. -/
def Release.dated : Release := .ofTitle "Portal" .usenet ⟨1704067200, 500000000⟩

/-- A profile with a preferred size, a game with a file and one without, a blocked release and a
candidate. -/
def Fixture.dated : Fixture :=
  let quality : QualityModel := ⟨.retail, ⟨1, 0, false⟩⟩
  let game := Game.ofTitle .nil "Portal" { Profile.small with preferredSize := some 50 }
  let file := GameFile.ofQuality .nil Release.dated.published quality
  { games := [{ game with file := some file }, { game with profile := .small }]
    history := []
    blocklist := [⟨.nil, "Portal", .usenet, none, none, some Release.dated.published, ⟨0, 0⟩⟩]
    queue := []
    indexers := []
    candidates := [⟨some .nil, Release.dated, some (.ofQuality "Portal" quality), [.bonus]⟩] }

/-- The numeral of the one size of that fixture. -/
def Numeral.fifty : Numeral := ⟨false, [5, 0], [0], none⟩

theorem Json.readsBack_fifty : ReadsBack (fun _ => .fifty) 50 where
  wellFormed :=
    { whole_ne_nil := by decide
      length_of_zero := by decide
      whole_lt := by decide
      fraction_lt := by decide
      exponent := nofun }
  read := by
    have float : Numeral.fifty.float? = some 50 := by decide +kernel
    rw [Numeral.toData, float]
    rfl

theorem Fixture.ofData?_read?_text_dated :
    (∀ t ∈ Fixture.dated.dates, t.IsPlain) ∧ (∀ x ∈ Fixture.dated.sizes, x.isFinite) ∧
      (∀ x ∈ Fixture.dated.sizes, Json.ReadsBack (fun _ => .fifty) x) ∧
      (Json.read? (Fixture.dated.text .pretty fun _ => .fifty)).bind ofData? =
        some Fixture.dated ∧
      (Fixture.read (Fixture.dated.text .pretty fun _ => .fifty) = .ok Fixture.dated ↔
        ∀ game ∈ Fixture.dated.games, game.violations = []) := by
  have published : Release.dated.published.IsPlain := ⟨by decide, by decide, by decide⟩
  have epoch : (⟨0, 0⟩ : Instant).IsPlain := ⟨by decide, by decide, by decide⟩
  have plain : ∀ t ∈ Fixture.dated.dates, t.IsPlain :=
    List.forall_mem_cons.mpr ⟨published, List.forall_mem_cons.mpr ⟨published,
      List.forall_mem_cons.mpr ⟨epoch, List.forall_mem_singleton.mpr published⟩⟩⟩
  have finite : ∀ x ∈ Fixture.dated.sizes, x.isFinite :=
    List.forall_mem_singleton.mpr (by decide +kernel)
  have back : ∀ x ∈ Fixture.dated.sizes, Json.ReadsBack (fun _ => .fifty) x :=
    List.forall_mem_singleton.mpr Json.readsBack_fifty
  exact ⟨plain, finite, back, Fixture.ofData?_read?_text .pretty _ .dated plain finite back⟩

end ReleaseSelection
