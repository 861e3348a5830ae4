import SpanCourier.Proofs.Json.Grammar
import SpanCourier.Settings.Environment

/-!
# settings beside an error

Variables are applied in turn, up to the first that cannot be used, and nothing takes back those that
came before it.  As only the greatest size of a request can be wrong, an error comes with settings that
have the project and the host of the environment, but neither a size nor an agent from there.

* `IsSizeText`                       the values that the greatest size can be set to;
* `applyVariables_eq_error_iff`      how a list of variables fails;
* `Environment.textOf?_eq_some_iff`  what a process sets a variable to;
* `environment_failures`             when the environment fails, and the settings beside the error;
* `ofProcess_eq_error_iff`           when a process has no settings.
-/

namespace SpanCourier

open Json (IsDigits)

/-! ## the variable that can be wrong -/

/-- a natural number of 64 bits in decimal digits, with or without a plus sign before them -/
def IsSizeText (value : String) : Prop :=
  ∃ ds, (utf8 value = ds ∨ utf8 value = 0x2b :: ds) ∧ IsDigits ds
    ∧ Json.Number.natOfDigits ds < UInt64.size

/-- the bytes of a text without a plus sign before them -/
def unsigned (value : String) : Bytes :=
  if (utf8 value).head? = some 0x2b then (utf8 value).drop 1 else utf8 value

theorem isDigits_iff {ds : Bytes} :
    IsDigits ds ↔ ¬ (ds.isEmpty = true ∨ (!ds.all Json.Number.isDigit) = true) := by
  simp [IsDigits]

theorem parseSize?_eq_none_iff_unsigned {value : String} :
    parseSize? value = none ↔ ¬ (IsDigits (unsigned value)
      ∧ Json.Number.natOfDigits (unsigned value) < UInt64.size) := by
  rw [isDigits_iff, parseSize?]
  dsimp only
  rw [← unsigned]
  split
  · rename_i h
    exact iff_of_true rfl fun hdigits => hdigits.1 h
  · rename_i h
    by_cases hlt : Json.Number.natOfDigits (unsigned value) < UInt64.size
    · rw [if_pos hlt]
      exact iff_of_false (fun h => nomatch h) fun hnot => hnot ⟨h, hlt⟩
    · rw [if_neg hlt]
      exact iff_of_true rfl fun hsize => hlt hsize.2

theorem unsigned_of_isDigits {value : String} {ds : Bytes} (h : IsDigits ds)
    (hvalue : utf8 value = ds ∨ utf8 value = 0x2b :: ds) : unsigned value = ds := by
  rcases hvalue with hvalue | hvalue
  · obtain ⟨d, ds, rfl⟩ := List.exists_cons_of_ne_nil h.1
    have hne : d ≠ 0x2b := by
      rintro rfl
      exact absurd (h.2 0x2b List.mem_cons_self) (by decide)
    rw [unsigned, hvalue, List.head?_cons, if_neg (fun heq => hne (Option.some.inj heq))]
  · rw [unsigned, hvalue, List.head?_cons, if_pos rfl]
    rfl

theorem utf8_eq_unsigned_or (value : String) :
    utf8 value = unsigned value ∨ utf8 value = 0x2b :: unsigned value := by
  rw [unsigned]
  split
  · rename_i h
    obtain ⟨bs, hbs⟩ := List.head?_eq_some_iff.mp h
    right
    rw [hbs]
    rfl
  · exact Or.inl rfl

theorem parseSize?_eq_none_iff {value : String} : parseSize? value = none ↔ ¬ IsSizeText value := by
  rw [parseSize?_eq_none_iff_unsigned, not_congr]
  constructor
  · exact fun h => ⟨unsigned value, utf8_eq_unsigned_or value, h⟩
  · rintro ⟨ds, hvalue, hdigits, hlt⟩
    rw [unsigned_of_isDigits hdigits hvalue]
    exact ⟨hdigits, hlt⟩

/-- a process sets a variable to a text by the bytes of that text, and by no others -/
theorem Environment.textOf?_eq_some_iff {env : Environment} {v : Variable} {value : String} :
    env.textOf? v = some value ↔ env v.name = some (utf8 value) := by
  rw [textOf?, Option.bind_eq_some_iff]
  constructor
  · rintro ⟨bs, hbs, htext⟩
    rw [hbs, utf8_of_ofUtf8? htext]
  · exact fun h => ⟨utf8 value, h, ofUtf8?_utf8 value⟩

namespace Settings

/-- the name of the variable that can be wrong -/
theorem override_eq_error_iff {s : Settings} {v : Variable} {value : String} {e : ConfigError} :
    s.override v value = .error e
      ↔ v = .messageMaxBytes ∧ ¬ IsSizeText value
        ∧ e = .invalidEnv "STACKDRIVER_MESSAGE_MAX_BYTES" value := by
  rw [← parseSize?_eq_none_iff]
  cases v with
  | messageMaxBytes =>
    rw [override]
    cases h : parseSize? value with
    | none => simp [Variable.name, eq_comm]
    | some n => simp
  | projectId | apiHost | agent => exact iff_of_false (fun h => nomatch h) fun h => nomatch h.1

/-! ## variables in turn -/

variable {lookup : Variable → Option String} {s s' : Settings}

theorem applyVariables_of_none {v : Variable} (h : lookup v = none) (vs : List Variable) :
    applyVariables lookup (v :: vs) s = applyVariables lookup vs s := by
  rw [applyVariables, h]

theorem applyVariables_of_ok {v : Variable} {value : String} (h : lookup v = some value)
    (hok : s.override v value = .ok s') (vs : List Variable) :
    applyVariables lookup (v :: vs) s = applyVariables lookup vs s' := by
  rw [applyVariables, h]
  dsimp only
  rw [hok]

theorem applyVariables_of_error {v : Variable} {value : String} {e : ConfigError}
    (h : lookup v = some value) (herror : s.override v value = .error e) (vs : List Variable) :
    applyVariables lookup (v :: vs) s = (s, some e) := by
  rw [applyVariables, h]
  dsimp only
  rw [herror]

/-- what comes after variables that could be used goes on from the settings that they left -/
theorem applyVariables_append {before : List Variable}
    (h : applyVariables lookup before s = (s', none)) (rest : List Variable) :
    applyVariables lookup (before ++ rest) s = applyVariables lookup rest s' := by
  induction before generalizing s with
  | nil =>
    cases h
    rfl
  | cons v before ih =>
    rw [List.cons_append]
    cases hv : lookup v with
    | none =>
      rw [applyVariables_of_none hv] at h ⊢
      exact ih h
    | some value =>
      cases ho : s.override v value with
      | ok t =>
        rw [applyVariables_of_ok hv ho] at h ⊢
        exact ih h
      | error e =>
        rw [applyVariables_of_error hv ho] at h
        cases h

theorem exists_of_applyVariables_eq_error {vs : List Variable} {e : ConfigError}
    (h : applyVariables lookup vs s = (s', some e)) :
    ∃ before v after value, vs = before ++ v :: after
      ∧ applyVariables lookup before s = (s', none) ∧ lookup v = some value
      ∧ s'.override v value = .error e := by
  induction vs generalizing s with
  | nil => cases h
  | cons v vs ih =>
    cases hv : lookup v with
    | none =>
      rw [applyVariables_of_none hv] at h
      obtain ⟨before, w, after, value, rfl, hbefore, hw⟩ := ih h
      exact ⟨v :: before, w, after, value, rfl, by rwa [applyVariables_of_none hv], hw⟩
    | some value =>
      cases ho : s.override v value with
      | ok t =>
        rw [applyVariables_of_ok hv ho] at h
        obtain ⟨before, w, after, value', rfl, hbefore, hw⟩ := ih h
        exact ⟨v :: before, w, after, value', rfl, by rwa [applyVariables_of_ok hv ho], hw⟩
      | error e' =>
        rw [applyVariables_of_error hv ho] at h
        cases h
        exact ⟨[], v, vs, value, rfl, rfl, hv, ho⟩

/-- variables fail with the first that cannot be used, and leave the settings as they are after those
before it -/
theorem applyVariables_eq_error_iff {vs : List Variable} {e : ConfigError} :
    applyVariables lookup vs s = (s', some e) ↔ ∃ before v after value, vs = before ++ v :: after
      ∧ applyVariables lookup before s = (s', none) ∧ lookup v = some value
      ∧ s'.override v value = .error e := by
  refine ⟨exists_of_applyVariables_eq_error, ?_⟩
  rintro ⟨before, v, after, value, rfl, hbefore, hv, ho⟩
  rw [applyVariables_append hbefore, applyVariables_of_error hv ho]

/-- the project and the host are set first, and neither can be wrong -/
theorem applyVariables_project_host (lookup : Variable → Option String) (s : Settings) :
    applyVariables lookup [.projectId, .apiHost] s = ({ s with
      projectId := (lookup .projectId).or s.projectId
      apiHost := (lookup .apiHost).getD s.apiHost }, none) := by
  cases hp : lookup .projectId with
  | none =>
    rw [applyVariables_of_none hp]
    cases hh : lookup .apiHost with
    | none =>
      rw [applyVariables_of_none hh]
      rfl
    | some host =>
      rw [applyVariables_of_ok hh rfl]
      rfl
  | some project =>
    rw [applyVariables_of_ok hp rfl]
    cases hh : lookup .apiHost with
    | none =>
      rw [applyVariables_of_none hh]
      rfl
    | some host =>
      rw [applyVariables_of_ok hh rfl]
      rfl

theorem before_messageMaxBytes {before after : List Variable}
    (h : Variable.all = before ++ .messageMaxBytes :: after) : before = [.projectId, .apiHost] := by
  rw [Variable.all] at h
  rcases before with _ | ⟨_, _ | ⟨_, _ | ⟨_, _ | ⟨_, before⟩⟩⟩⟩ <;> simp_all

theorem applyEnvironment_eq_error_iff {e : ConfigError} :
    s.applyEnvironment lookup = (s', some e) ↔ s' = { s with
        projectId := (lookup .projectId).or s.projectId
        apiHost := (lookup .apiHost).getD s.apiHost }
      ∧ ∃ value, lookup .messageMaxBytes = some value ∧ ¬ IsSizeText value
        ∧ e = .invalidEnv "STACKDRIVER_MESSAGE_MAX_BYTES" value := by
  have hfirst := applyVariables_project_host lookup s
  rw [applyEnvironment, applyVariables_eq_error_iff]
  constructor
  · rintro ⟨before, v, after, value, hall, hbefore, hv, ho⟩
    obtain ⟨rfl, hsize, rfl⟩ := override_eq_error_iff.mp ho
    rw [before_messageMaxBytes hall, hfirst, Prod.mk.injEq] at hbefore
    exact ⟨hbefore.1.symm, value, hv, hsize, rfl⟩
  · rintro ⟨rfl, value, hv, hsize, rfl⟩
    exact ⟨[.projectId, .apiHost], .messageMaxBytes, [.agent], value, rfl, hfirst, hv,
      override_eq_error_iff.mpr ⟨rfl, hsize, rfl⟩⟩

/-- a process has no settings just if its greatest size of a request is a text that is no natural number
of 64 bits -/
theorem ofProcess_eq_error_iff {env : Environment} {e : ConfigError} :
    ofProcess env = .error e
      ↔ ∃ value, env "STACKDRIVER_MESSAGE_MAX_BYTES" = some (utf8 value) ∧ ¬ IsSizeText value
        ∧ e = .invalidEnv "STACKDRIVER_MESSAGE_MAX_BYTES" value := by
  have hset : ∀ value, env.textOf? .messageMaxBytes = some value
      ↔ env "STACKDRIVER_MESSAGE_MAX_BYTES" = some (utf8 value) :=
    fun value => Environment.textOf?_eq_some_iff
  have hfails : ofProcess env = .error e ↔ ∃ s', applyProcess {} env = (s', some e) := by
    rw [ofProcess]
    split
    · rename_i s' h
      simp [h]
    · rename_i s' e' h
      simp [h, eq_comm]
  rw [hfails]
  simp only [applyProcess, applyEnvironment_eq_error_iff, hset]
  exact exists_eq_left

/-- setting the project and the host changes nothing if they are set to what they are already -/
theorem with_project_host_eq_iff (project host : Option String) (s : Settings) :
    { s with projectId := project.or s.projectId, apiHost := host.getD s.apiHost } = s
      ↔ (∀ p, project = some p → s.projectId = some p) ∧ ∀ h, host = some h → s.apiHost = h := by
  have heq : { s with projectId := project.or s.projectId, apiHost := host.getD s.apiHost } = s
      ↔ project.or s.projectId = s.projectId ∧ host.getD s.apiHost = s.apiHost := by
    cases s
    simp
  rw [heq]
  refine and_congr ?_ ?_
  · cases project with
    | none => simp
    | some p => simp [eq_comm]
  · cases host with
    | none => simp
    | some h => simp [eq_comm]

/-- The environment fails just if it sets the greatest size of a request to what is no natural number of
64 bits.  The error names the variable and its value, and beside it the settings have the project and the
host of the environment, where it sets them, and are in all else as they were, the agent included.  So
they are the same as before just if the environment sets neither of the two to anything new.  In a process
the environment sets a variable to a text if it has the bytes of that text for it; bytes that are no text
set nothing and are not wrong. -/
theorem environment_failures (s : Settings) (lookup : Variable → Option String) :
    (∀ e, (s.applyEnvironment lookup).2 = some e
      ↔ ∃ value, lookup .messageMaxBytes = some value ∧ ¬ IsSizeText value
        ∧ e = .invalidEnv "STACKDRIVER_MESSAGE_MAX_BYTES" value)
    ∧ (∀ s' e, s.applyEnvironment lookup = (s', some e) →
      s' = { s with
        projectId := (lookup .projectId).or s.projectId
        apiHost := (lookup .apiHost).getD s.apiHost }
      ∧ (s' = s ↔ (∀ project, lookup .projectId = some project → s.projectId = some project)
        ∧ ∀ host, lookup .apiHost = some host → s.apiHost = host))
    ∧ ∀ env : Environment, s.applyProcess env = s.applyEnvironment env.textOf?
      ∧ ∀ v value, env.textOf? v = some value ↔ env v.name = some (utf8 value) := by
  refine ⟨fun e => ?_, fun s' e h => ?_, fun env => ⟨rfl, fun v value => env.textOf?_eq_some_iff⟩⟩
  · constructor
    · intro h
      exact (applyEnvironment_eq_error_iff.mp (Prod.ext rfl h)).2
    · intro h
      rw [applyEnvironment_eq_error_iff.mpr ⟨rfl, h⟩]
  · obtain ⟨rfl, -⟩ := applyEnvironment_eq_error_iff.mp h
    exact ⟨rfl, with_project_host_eq_iff _ _ s⟩

/-- an environment with a size that is too large by one, a host that is set already and an agent -/
theorem environment_failures_same_host :
    let s : Settings := { apiHost := "h" }
    let lookup (v : Variable) : Option String := [(Variable.apiHost, "h"),
      (.messageMaxBytes, "+18446744073709551616"), (.agent, "a")].lookup v
    (s.applyEnvironment lookup).2
      = some (.invalidEnv "STACKDRIVER_MESSAGE_MAX_BYTES" "+18446744073709551616")
      ∧ (s.applyEnvironment lookup).1 = s := by
  intro s lookup
  obtain ⟨hfails, hbeside, -⟩ := environment_failures s lookup
  have hsize : ¬ IsSizeText "+18446744073709551616" := by
    rw [← parseSize?_eq_none_iff]
    decide +kernel
  have herror := (hfails _).mpr ⟨_, rfl, hsize, rfl⟩
  refine ⟨herror, (hbeside _ _ (Prod.ext rfl herror)).2.mpr ⟨?_, ?_⟩⟩
  · exact fun _ h => nomatch h
  · rintro host h
    cases h
    rfl

/-- bytes that are no text are no wrong size -/
example : ({} : Settings).applyProcess
    (fun name => if name = "STACKDRIVER_MESSAGE_MAX_BYTES" then some [0xff] else none) = ({}, none) := by
  decide +kernel

/-- an environment that fails and leaves its project and its host in the settings -/
theorem environment_failure_sets_project :
    let s : Settings := {}
    let lookup (v : Variable) : Option String := [(Variable.projectId, "p"), (.apiHost, "h"),
      (.messageMaxBytes, "bad"), (.agent, "a")].lookup v
    (s.applyEnvironment lookup).2 = some (.invalidEnv "STACKDRIVER_MESSAGE_MAX_BYTES" "bad")
      ∧ (s.applyEnvironment lookup).1 = { s with projectId := some "p", apiHost := "h" }
      ∧ (s.applyEnvironment lookup).1 ≠ s := by
  decide +kernel

end Settings

end SpanCourier
