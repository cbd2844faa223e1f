import ApiTools.Settings.Basic
import ApiTools.Text.Case
import ApiTools.Validation.Lenient

/-!
# Reading settings

A setting is given by name or taken from the environment, where the letter case of its name does
not matter; what is given comes first. Values are read leniently. Other names in the environment
say nothing, but a name that is given and is none of a setting is refused.
-/

namespace ApiTools

namespace Settings

/-- A value read as what a setting is changed to. -/
abbrev Setter := Json → Checked (Settings → Settings)

/-- A setting that is a text. -/
def textSetter (set : Text → Settings → Settings) : Setter := fun v ↦
  set <$> Lenient.checked (Lenient.text v)

/-- A setting that is a text or nothing. -/
def optionalSetter (set : Option Text → Settings → Settings) : Setter := fun v ↦
  set <$> Lenient.optional (fun v ↦ Lenient.checked (Lenient.text v)) v

/-- A setting that is a whole number. -/
def intSetter (set : Int → Settings → Settings) : Setter := fun v ↦
  set <$> Lenient.checked (Lenient.int v)

/-- The settings by their names. -/
def setters : Fields Setter := [
  ("service_name", textSetter fun t s ↦ { s with serviceName := t }),
  ("service_url", textSetter fun t s ↦ { s with serviceUrl := t }),
  ("service_authorization", optionalSetter fun t s ↦ { s with serviceAuthorization := t }),
  ("client_timeout_seconds", fun v ↦
    (fun x s ↦ { s with clientTimeout := x }) <$> Lenient.checked (Lenient.float v)),
  ("adapter_openapi_url", optionalSetter fun t s ↦ { s with documentSource := t }),
  ("adapter_transport", textSetter fun t s ↦ { s with transport := t }),
  ("adapter_host", textSetter fun t s ↦ { s with host := t }),
  ("adapter_port", intSetter fun i s ↦ { s with portNumber := i }),
  ("adapter_auth_token", optionalSetter fun t s ↦ { s with authToken := t }),
  ("adapter_max_concurrency", intSetter fun i s ↦ { s with maxConcurrency := i }),
  ("adapter_tool_cache_seconds", intSetter fun i s ↦ { s with toolCacheSeconds := i }),
  ("adapter_openapi_cache_seconds", intSetter fun i s ↦ { s with documentCacheSeconds := i }),
  ("adapter_tool_allowlist", optionalSetter fun t s ↦ { s with toolAllowlist := t }),
  ("adapter_strict_tool_ids", fun v ↦
    (fun b s ↦ { s with strictToolIds := b }) <$> Lenient.checked (Lenient.bool v)),
  ("adapter_output_dir", textSetter fun t s ↦ { s with outputDirectory := t }),
  ("adapter_log_level", textSetter fun t s ↦ { s with logLevel := t })]

/-- The values that the environment has for the settings. Of names that differ in letter case
alone the last counts. -/
def ofEnvironment (environment : Fields Text) : Fields Json :=
  (Fields.ofList (environment.map fun (name, v) ↦ (name.toLower, Value.string v))).filter
    fun f ↦ setters.has f.1

/-- The settings with those changed for which there are values. Everything that is wrong with the
values is told. -/
def update (s : Settings) (values : Fields Json) : Checked Settings :=
  setters.foldl (fun read (name, setter) ↦
    match values.get? name with
    | none => read
    | some v => Checked.both (fun s f ↦ f s) read ((setter v).under (.field name))) (.ok s)

/-- The issues of names that are none of a setting. -/
def strangers (given : Fields Json) : List Issue :=
  (given.names.filter fun name ↦ !setters.has name).map fun name ↦
    ⟨[.field name], .extraForbidden⟩

/-- The settings of an environment and of what is given. -/
def load (environment : Fields Text) (given : Fields Json) : Checked Settings :=
  let read := standard.update ((ofEnvironment environment).update given)
  match strangers given with
  | [] => read
  | issues => Checked.both (fun s (_ : Unit) ↦ s) read (.error issues)

end Settings

end ApiTools
