import SpanCourier.Proofs.Dict
import SpanCourier.Proofs.Json.Records
import SpanCourier.Proofs.Settings.Environment
import SpanCourier.Settings.Json

/-!
# settings in layers

Settings come in three layers: the default ones, the members of an object over them, and the variables
of the environment over these.  A layer gives some of the settings, and leaves the others as they are
below it.  The names of labels have layers of their own: the renames of the settings, the default
renames, and the label space.

* `Layer.over`            what a layer leaves of the settings below it;
* `Layer.IsText`          the texts of a layer;
* `parse_layer`           which are read over the default settings;
* `Settings.applyEnvironment_eq`  the environment as a layer;
* `isNamed_nameOf`        the names of labels;
* `settings_in_layers`    all of it.
-/

namespace SpanCourier

open Json

/-- some of the settings; each is given, or it is not -/
structure Layer where
  projectId : Option (Option String) := none
  apiHost : Option String := none
  messageMaxBytes : Option UInt64 := none
  strictTraceId : Option Bool := none
  apiVersion : Option ApiVersion := none
  callTimeoutMillis : Option (Option UInt64) := none
  labelRenames : Option (Dict String) := none
  labelSpace : Option (Option String) := none
  agentName : Option String := none
  healthCheckSeconds : Option UInt64 := none

/-- settings with those that a layer gives in place of their own -/
def Layer.over (l : Layer) (s : Settings) : Settings where
  projectId := l.projectId.getD s.projectId
  apiHost := l.apiHost.getD s.apiHost
  messageMaxBytes := l.messageMaxBytes.getD s.messageMaxBytes
  strictTraceId := l.strictTraceId.getD s.strictTraceId
  apiVersion := l.apiVersion.getD s.apiVersion
  callTimeoutMillis := l.callTimeoutMillis.getD s.callTimeoutMillis
  labelRenames := l.labelRenames.getD s.labelRenames
  labelSpace := l.labelSpace.getD s.labelSpace
  agentName := l.agentName.getD s.agentName
  healthCheckSeconds := l.healthCheckSeconds.getD s.healthCheckSeconds

/-! ## the texts of single settings -/

def IsWordText (n : UInt64) (t : Bytes) : Prop := IsWhole t ∧ Number.natOfDigits t = n.toNat

def IsBoolText (b : Bool) (t : Bytes) : Prop := t = utf8 (if b then "true" else "false")

/-- a version is its name, or an object with the name as its one key and null under it -/
inductive IsVersionText (v : ApiVersion) : Bytes → Prop
  | name {t : Bytes} (isName : IsTextOf v.name t) : IsVersionText v t
  | key {key t : Bytes} (isKey : IsKeyOf v.name key) (isNull : Padded (· = utf8 "null") t) :
      IsVersionText v (objectText [(key, t)])

/-- renames are an object; if a key comes more than once, its last name counts -/
def IsRenamesText (d : Dict String) (t : Bytes) : Prop :=
  ∃ written es, IsObject written t
    ∧ List.Forall₂ (IsMember fun t name => Padded (IsTextOf name) t) written es
    ∧ d = Dict.ofEntries es

/-- a setting that may be absent is null then -/
inductive IsNullable {α : Type} (p : α → Bytes → Prop) : Option α → Bytes → Prop
  | null : IsNullable p none (utf8 "null")
  | given {a : α} {t : Bytes} (isText : p a t) : IsNullable p (some a) t

theorem reads_word {type : String} {n : UInt64} {t : Bytes} (h : IsWordText n t) :
    Reads (word64 type).read t n := by
  obtain ⟨hwhole, hvalue⟩ := h
  have hle : Number.natOfDigits t ≤ UInt64.size - 1 := hvalue ▸ Nat.le_pred_of_lt n.toNat_lt
  have hnat : Reads (Shape.nat type (UInt64.size - 1)).read t (Number.natOfDigits t) :=
    reads_whole hwhole hle (by decide)
  have hword := hnat.map UInt64.ofNat
  rw [hvalue, UInt64.ofNat_toNat] at hword
  exact hword

theorem reads_boolText {b : Bool} {t : Bytes} (h : IsBoolText b t) : Reads Shape.bool.read t b :=
  h ▸ reads_bool b

theorem reads_version {v : ApiVersion} {t : Bytes} (h : IsVersionText v t) :
    Reads ApiVersion.shape.read t v := by
  have hfind : Dict.find? v.name ApiVersion.names = some v := by cases v <;> rfl
  cases h with
  | name isName => exact reads_variant hfind isName
  | key isKey isNull => exact reads_variantObject hfind isKey isNull

theorem reads_renames {d : Dict String} {t : Bytes} (h : IsRenamesText d t) :
    Reads Shape.string.dict.read t d := by
  obtain ⟨written, es, hobject, hmembers, rfl⟩ := h
  apply reads_dict hobject
  refine hmembers.imp fun w e hmember => ⟨hmember.key, ?_⟩
  exact Reads.padded (hmember.value.imp fun _ htext => reads_text htext)

theorem reads_nullable {α : Type} {p : α → Bytes → Prop} {shape : Shape α}
    (hp : ∀ {a t}, p a t → Reads shape.read t a) (hdefinite : Definite shape) {a : Option α}
    {t : Bytes} (h : IsNullable p a t) : Reads shape.nullable.read t a := by
  cases h with
  | null => exact reads_null shape
  | given isText => exact (hp isText).nullable hdefinite

/-! ## the texts of a layer -/

/-- the members of a layer under their names, each with the texts that it may have if it is given -/
def Layer.table (l : Layer) : List (String × Option (Bytes → Prop)) := [
  ("project_id", l.projectId.map (IsNullable IsTextOf)),
  ("api_host", l.apiHost.map IsTextOf),
  ("message_max_bytes", l.messageMaxBytes.map IsWordText),
  ("strict_trace_id", l.strictTraceId.map IsBoolText),
  ("api_version", l.apiVersion.map IsVersionText),
  ("call_timeout_ms", l.callTimeoutMillis.map (IsNullable IsWordText)),
  ("label_renames", l.labelRenames.map IsRenamesText),
  ("label_prefix", l.labelSpace.map (IsNullable IsTextOf)),
  ("agent_name", l.agentName.map IsTextOf),
  ("health_check_expiration_secs", l.healthCheckSeconds.map IsWordText)]

/-- a member has a text if it is given, and blanks may stand around the text -/
structure IsField (row : String × Option (Bytes → Prop)) (f : String × Option Bytes) : Prop where
  name : row.1 = f.1
  text : Option.Rel Padded row.2 f.2

theorem IsField.isSome {row : String × Option (Bytes → Prop)} {f : String × Option Bytes}
    (h : IsField row f) (hgiven : row.2.isSome = true) : f.2.isSome = true := by
  obtain ⟨_, p⟩ := row
  obtain ⟨_, t⟩ := f
  cases h.text with
  | none => exact hgiven
  | some => rfl

/-- the texts of a layer: an object of its members in any order, with members of other names among
them, and with blanks between all parts -/
def Layer.IsText (l : Layer) (text : Bytes) : Prop :=
  Padded (fun object => ∃ fields members written, List.Forall₂ IsField l.table fields
    ∧ IsForm fields [] members ∧ List.Forall₂ (IsMember Eq) written members
    ∧ IsObject written object) text

/-! ## the members of an object over the default settings -/

/-- the settings so far, once the members of some names came -/
def Layer.patch (l : Layer) (names : List String) : Settings where
  projectId := taken names "project_id" (l.projectId.getD none) none
  apiHost := taken names "api_host" (l.apiHost.getD defaultApiHost) defaultApiHost
  messageMaxBytes := taken names "message_max_bytes"
    (l.messageMaxBytes.getD defaultMessageMaxBytes) defaultMessageMaxBytes
  strictTraceId := taken names "strict_trace_id" (l.strictTraceId.getD true) true
  apiVersion := taken names "api_version" (l.apiVersion.getD .v2) .v2
  callTimeoutMillis := taken names "call_timeout_ms" (l.callTimeoutMillis.getD none) none
  labelRenames := taken names "label_renames" (l.labelRenames.getD ∅) ∅
  labelSpace := taken names "label_prefix" (l.labelSpace.getD none) none
  agentName := taken names "agent_name" (l.agentName.getD defaultAgent) defaultAgent
  healthCheckSeconds := taken names "health_check_expiration_secs"
    (l.healthCheckSeconds.getD defaultHealthCheckSeconds) defaultHealthCheckSeconds

section
variable {α : Type} {names : List String} {name : String} {p : α → Bytes → Prop} {a : Option α}
  {blank : α}

theorem taken_getD (h : (a.map p).isSome = true → name ∈ names) :
    taken names name (a.getD blank) blank = a.getD blank := by
  apply taken_eq h
  intro hnone
  rw [Option.map_eq_none_iff.mp hnone, Option.getD_none]

theorem reflects_field {σ : Type} {patch : List String → σ} {shape : Shape α} {set : α → σ → σ}
    (hreads : ∀ {a t}, p a t → Reads shape.read t a)
    (hset : ∀ b, a = some b → ∀ names, set b (patch names) = patch (name :: names)) :
    ∀ f, IsField (name, a.map p) f → (Member.of name false shape set).Reflects patch [] f := by
  rintro ⟨_, t⟩ ⟨rfl, htext⟩
  refine ⟨rfl, ?_, fun _ hin => absurd hin List.not_mem_nil, fun h => nomatch h⟩
  rintro text rfl
  cases a with
  | none => cases htext
  | some a =>
    cases htext with
    | some hpadded =>
      have hread : Reads shape.read text a := Reads.padded (hpadded.imp fun _ ht => hreads ht)
      exact fills_of hread (hset a rfl)

end

theorem Layer.patch_eq (l : Layer) {names : List String}
    (h : ∀ row ∈ l.table, row.2.isSome = true → row.1 ∈ names) : l.patch names = l.over {} := by
  simp only [Layer.table, List.forall_mem_cons] at h
  obtain ⟨hproject, hhost, hmax, hstrict, hversion, htimeout, hrenames, hspace, hagent, hseconds, -⟩ :=
    h
  rw [Layer.patch, taken_getD hproject, taken_getD hhost, taken_getD hmax, taken_getD hstrict,
    taken_getD hversion, taken_getD htimeout, taken_getD hrenames, taken_getD hspace,
    taken_getD hagent, taken_getD hseconds]
  rfl

theorem Layer.describes (l : Layer) {fields : List (String × Option Bytes)}
    (h : List.Forall₂ IsField l.table fields) :
    Settings.record.Describes l.patch [] fields (l.over {}) where
  distinct := by decide
  blank := rfl
  reflects := by
    have hrows : List.Forall₂ (fun m row => ∀ f, IsField row f → m.Reflects l.patch [] f)
        Settings.record.members l.table := by
      -- one line for each member, in the order of the record
      refine
        .cons (reflects_field (reads_nullable reads_text definite_string) ?_) <|
        .cons (reflects_field reads_text ?_) <|
        .cons (reflects_field reads_word ?_) <|
        .cons (reflects_field reads_boolText ?_) <|
        .cons (reflects_field reads_version ?_) <|
        .cons (reflects_field (reads_nullable reads_word ((definite_nat _ _).map _)) ?_) <|
        .cons (reflects_field reads_renames ?_) <|
        .cons (reflects_field (reads_nullable reads_text definite_string) ?_) <|
        .cons (reflects_field reads_text ?_) <|
        .cons (reflects_field reads_word ?_) <|
        .nil
      all_goals
        intro b hb names
        simp [Layer.patch, taken, hb]
    exact forall₂_trans (fun hrow hfield => hrow _ hfield) hrows h
  value names hnames := by
    apply l.patch_eq
    intro row hrow hgiven
    obtain ⟨f, hf, hfield⟩ := (exists_of_forall₂ h).1 row hrow
    rw [hfield.name]
    exact hnames f hf (hfield.isSome hgiven)

/-- an object is read as the default settings with its members in place of theirs -/
theorem parse_layer {l : Layer} {text : Bytes} (h : l.IsText text) :
    Settings.parse text = .ok (l.over {}) := by
  apply parse_eq
  apply Reads.padded
  refine h.imp ?_
  rintro object ⟨fields, members, written, hfields, hform, hwritten, hobject⟩
  exact (l.describes hfields).reads_object hform hwritten hobject

/-! ## the environment over settings -/

/-- the texts of a size: its digits, with or without a plus sign before them -/
def IsSizeTextOf (n : UInt64) (value : String) : Prop :=
  ∃ ds, (utf8 value = ds ∨ utf8 value = 0x2b :: ds) ∧ IsDigits ds
    ∧ Number.natOfDigits ds = n.toNat

/-- the variables that are set as a layer, where the greatest size of a request is read already -/
def Layer.ofVariables (lookup : Variable → Option String) (size : Option UInt64) : Layer where
  projectId := (lookup .projectId).map some
  apiHost := lookup .apiHost
  messageMaxBytes := size
  agentName := lookup .agent

theorem parseSize?_of_isSizeTextOf {n : UInt64} {value : String} (h : IsSizeTextOf n value) :
    parseSize? value = some n := by
  obtain ⟨ds, hvalue, hdigits, hn⟩ := h
  have hunsigned : unsigned value = ds := unsigned_of_isDigits hdigits hvalue
  have hlt : Number.natOfDigits ds < UInt64.size := hn ▸ n.toNat_lt
  rw [parseSize?]
  dsimp only
  rw [← unsigned, hunsigned, if_neg (isDigits_iff.mp hdigits), if_pos hlt, hn, UInt64.ofNat_toNat]

namespace Settings

variable {lookup : Variable → Option String} {size : Option UInt64}

theorem applyVariables_agent (lookup : Variable → Option String) (s : Settings) :
    applyVariables lookup [.agent] s
      = ({ s with agentName := (lookup .agent).getD s.agentName }, none) := by
  cases h : lookup .agent with
  | none =>
    rw [applyVariables_of_none h]
    rfl
  | some agent =>
    rw [applyVariables_of_ok h rfl]
    rfl

/-- the greatest size is set if it can be read, and then the agent is -/
theorem applyVariables_size_agent (hsize : Option.Rel IsSizeTextOf size (lookup .messageMaxBytes))
    (s : Settings) : applyVariables lookup [.messageMaxBytes, .agent] s = ({ s with
      messageMaxBytes := size.getD s.messageMaxBytes
      agentName := (lookup .agent).getD s.agentName }, none) := by
  cases h : lookup .messageMaxBytes with
  | none =>
    rw [h] at hsize
    cases hsize
    rw [applyVariables_of_none h, applyVariables_agent]
    rfl
  | some value =>
    rw [h] at hsize
    cases hsize with
    | @some n _ hvalue =>
      have hset : s.override .messageMaxBytes value = .ok { s with messageMaxBytes := n } := by
        rw [override, parseSize?_of_isSizeTextOf hvalue]
      rw [applyVariables_of_ok h hset, applyVariables_agent]
      rfl

theorem applyEnvironment_eq (hsize : Option.Rel IsSizeTextOf size (lookup .messageMaxBytes))
    (s : Settings) : s.applyEnvironment lookup = ((Layer.ofVariables lookup size).over s, none) := by
  have hall : Variable.all = [.projectId, .apiHost] ++ [.messageMaxBytes, .agent] := rfl
  have hproject : (lookup .projectId).or s.projectId
      = ((lookup .projectId).map some).getD s.projectId := by
    cases lookup .projectId <;> rfl
  rw [applyEnvironment, hall,
    applyVariables_append (applyVariables_project_host lookup s),
    applyVariables_size_agent hsize, hproject]
  rfl

end Settings

/-! ## the names of labels -/

/-- the name of a label: the rename of its key in the settings, else the default rename, else the key
after the label space, if there is one -/
inductive IsNamed (s : Settings) (k : String) : String → Prop
  | own {name : String} (own : s.labelRenames.get? k = some name) : IsNamed s k name
  | standard {name : String} (own : s.labelRenames.get? k = none)
      (standard : defaultRenames.get? k = some name) : IsNamed s k name
  | spaced {space : String} (own : s.labelRenames.get? k = none)
      (standard : defaultRenames.get? k = none) (spaced : s.labelSpace = some space) :
      IsNamed s k (space ++ k)
  | plain (own : s.labelRenames.get? k = none) (standard : defaultRenames.get? k = none)
      (plain : s.labelSpace = none) : IsNamed s k k

theorem get?_renames (s : Settings) (k : String) :
    s.labelRules.renames.get? k = (s.labelRenames.get? k).or (defaultRenames.get? k) := by
  show (defaultRenames.insertAll s.labelRenames.entries).get? k = _
  rw [Dict.get?_insertAll, ← Dict.get?_ofEntries, Dict.ofEntries_entries]

theorem isNamed_nameOf (s : Settings) (k : String) : IsNamed s k (s.labelRules.nameOf k) := by
  rw [LabelRules.nameOf, get?_renames]
  cases hown : s.labelRenames.get? k with
  | some name => exact .own hown
  | none =>
    rw [Option.none_or]
    cases hstandard : defaultRenames.get? k with
    | some name => exact .standard hown hstandard
    | none =>
      show IsNamed s k (s.labelSpace.getD "" ++ k)
      cases hspace : s.labelSpace with
      | some space => exact .spaced hown hstandard hspace
      | none =>
        rw [Option.getD_none, String.empty_append]
        exact .plain hown hstandard hspace

/-! ## all layers -/

/-- A text of an object with any of the members of settings is read as the default settings with these
members in place of theirs, whatever other members the object has.  The environment sets the project, the
host, the greatest size of a request and the agent, each if its variable is set, and leaves all else as it
is, whatever the settings were before.  And whatever the settings are in the end, a label has the name
that their renames give its key, else the default name of the key, else the key itself, which stands after
the label space if there is one. -/
theorem settings_in_layers {file : Layer} {text : Bytes} (htext : file.IsText text)
    {lookup : Variable → Option String} {size : Option UInt64}
    (hsize : Option.Rel IsSizeTextOf size (lookup .messageMaxBytes)) :
    Settings.parse text = .ok (file.over {})
      ∧ (∀ s : Settings,
        s.applyEnvironment lookup = ((Layer.ofVariables lookup size).over s, none))
      ∧ ∀ (s : Settings) (k : String), IsNamed s k (s.labelRules.nameOf k) :=
  ⟨parse_layer htext, Settings.applyEnvironment_eq hsize, isNamed_nameOf⟩

/-- an object with an escape in a key, another member and renames, and an environment that sets a project
and a size -/
theorem settings_in_layers_three :
    let text := utf8
      " \x7b\"x\":true,\"\\u0061gent_name\":\"b\" ,\"label_renames\":\x7b\"http.url\":\"u\"\x7d\x7d"
    let file : Layer :=
      { agentName := some "b", labelRenames := some (.ofEntries [("http.url", "u")]) }
    let lookup (v : Variable) : Option String :=
      [(Variable.projectId, "p"), (.messageMaxBytes, "+08")].lookup v
    let s : Settings :=
      { file.over {} with projectId := some "p", messageMaxBytes := 8 }
    (∃ s₀, Settings.parse text = .ok s₀ ∧ s₀.applyEnvironment lookup = (s, none))
      ∧ IsNamed s "http.url" "u" := by
  intro text file lookup s
  let agent := utf8 "\"b\" "
  let renames := utf8 "\x7b\"http.url\":\"u\"\x7d"
  have hagent : Padded (IsTextOf "b") agent := ⟨[], renderText "b", [0x20], List.forall_mem_nil _,
    isTextOf_renderText "b", List.forall_mem_singleton.mpr rfl, rfl⟩
  have hrenames : IsRenamesText (.ofEntries [("http.url", "u")]) renames := by
    refine ⟨[(renderText "http.url", renderText "u")], _, .members _, ?_, rfl⟩
    exact isMember_render (fun name => padded_of (isTextOf_renderText name)) [("http.url", "u")]
  have hkey : IsTextOf "agent_name" (utf8 "\"\\u0061gent_name\"") := by
    have hcode : IsCoded 'a'.toNat (utf8 "\\u0061") :=
      ⟨utf8 "0061", rfl, by decide +kernel, by decide +kernel, rfl⟩
    exact ⟨_, .coded hcode (isBodyOf_escape (utf8 "gent_name")), rfl⟩
  have hfields : List.Forall₂ IsField file.table [("project_id", none), ("api_host", none),
      ("message_max_bytes", none), ("strict_trace_id", none), ("api_version", none),
      ("call_timeout_ms", none), ("label_renames", some renames), ("label_prefix", none),
      ("agent_name", some agent), ("health_check_expiration_secs", none)] :=
    .cons ⟨rfl, .none⟩ <| .cons ⟨rfl, .none⟩ <| .cons ⟨rfl, .none⟩ <| .cons ⟨rfl, .none⟩ <|
    .cons ⟨rfl, .none⟩ <| .cons ⟨rfl, .none⟩ <| .cons ⟨rfl, .some (padded_of hrenames)⟩ <|
    .cons ⟨rfl, .none⟩ <| .cons ⟨rfl, .some hagent⟩ <| .cons ⟨rfl, .none⟩ .nil
  have hwritten : List.Forall₂ (IsMember Eq)
      [(utf8 "\"x\"", utf8 "true"), (utf8 "\"\\u0061gent_name\"", agent),
        (renderText "label_renames", renames)]
      [("x", utf8 "true"), ("agent_name", agent), ("label_renames", renames)] :=
    .cons ⟨padded_of (isTextOf_renderText "x"), rfl⟩ <| .cons ⟨padded_of hkey, rfl⟩ <|
    .cons ⟨padded_of (isTextOf_renderText "label_renames"), rfl⟩ .nil
  have htext : file.IsText text := by
    refine ⟨[0x20], _, [], List.forall_mem_singleton.mpr rfl,
      ⟨_, _, _, hfields, ⟨[], [("x", utf8 "true")], List.nodup_nil, List.forall_mem_nil _, ?_, ?_⟩,
        hwritten, .members _⟩, List.forall_mem_nil _, rfl⟩
    · exact List.forall_mem_singleton.mpr ⟨by decide, .true⟩
    · decide
  have hsize : Option.Rel IsSizeTextOf (some 8) (lookup .messageMaxBytes) :=
    .some ⟨utf8 "08", .inr rfl, by unfold IsDigits; decide +kernel, rfl⟩
  obtain ⟨hparse, henvironment, hnames⟩ := settings_in_layers htext hsize
  exact ⟨⟨_, hparse, henvironment _⟩, hnames s "http.url"⟩

end SpanCourier
