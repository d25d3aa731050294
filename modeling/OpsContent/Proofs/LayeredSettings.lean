import OpsContent.Settings
import OpsContent.Proofs.Steps

/-!
# Layers of settings

Every setting is taken from the first of flag, variable, config file and built-in value that provides
it.  A flag hides what the variable of its setting says, but not that it cannot be read: a variable
whose value is refused fails the whole, whatever the flags are.
-/

namespace OpsContent.Settings

/-- The settings of a connection. -/
inductive Field where
  | host
  | port
  | token
  | sshUser
  | sshPort
  | insecure
  | timeout
  | scratch
  deriving DecidableEq

namespace Field

/-- All settings, in the order in which their variables are read. -/
def all : List Field :=
  [.host, .port, .token, .sshUser, .sshPort, .insecure, .timeout, .scratch]

/-- The variable of a setting. -/
def name : Field → String
  | .host => "VRSYNC_HOST"
  | .port => "VRSYNC_PORT"
  | .token => "VRSYNC_TOKEN"
  | .sshUser => "VRSYNC_SSH_USER"
  | .sshPort => "VRSYNC_SSH_PORT"
  | .insecure => "VRSYNC_INSECURE"
  | .timeout => "VRSYNC_TIMEOUT"
  | .scratch => "VRSYNC_TEMP_DIR"

/-- What a setting is. -/
abbrev Value : Field → Type
  | .host | .token | .sshUser => String
  | .port | .sshPort | .timeout => Nat
  | .insecure => Bool
  | .scratch => Path

/-- What a layer says about a setting. -/
def given : (field : Field) → Layer → Option field.Value
  | .host, layer => layer.host
  | .port, layer => layer.port
  | .token, layer => layer.token
  | .sshUser, layer => layer.sshUser
  | .sshPort, layer => layer.sshPort
  | .insecure, layer => layer.insecure
  | .timeout, layer => layer.timeout
  | .scratch, layer => layer.scratch

/-- What a setting is in the end. -/
def settled : (field : Field) → Settings → Option field.Value
  | .host, settings => settings.host
  | .port, settings => some settings.port
  | .token, settings => settings.token
  | .sshUser, settings => some settings.sshUser
  | .sshPort, settings => some settings.sshPort
  | .insecure, settings => some settings.insecure
  | .timeout, settings => some settings.timeout
  | .scratch, settings => settings.scratch

/-- What a setting is if no layer gives it. -/
def builtIn : (field : Field) → Option field.Value
  | .host | .token | .scratch => none
  | .port => some (443 : Nat)
  | .sshUser => some "root"
  | .sshPort => some (22 : Nat)
  | .insecure => some false
  | .timeout => some (360 : Nat)

/-- What a variable says, if it is not blank. -/
def reading : (field : Field) → Layer.Environment → Except Failure (Option field.Value)
  | .host, environment => .ok (Layer.nonBlank environment (name .host))
  | .port, environment => Layer.readNumber environment Unsigned.largest16 (name .port)
  | .token, environment => .ok (Layer.nonBlank environment (name .token))
  | .sshUser, environment => .ok (Layer.nonBlank environment (name .sshUser))
  | .sshPort, environment => Layer.readNumber environment Unsigned.largest16 (name .sshPort)
  | .insecure, environment => Layer.readSwitch environment (name .insecure)
  | .timeout, environment => Layer.readNumber environment Unsigned.largest64 (name .timeout)
  | .scratch, environment =>
    .ok ((Layer.nonBlank environment (name .scratch)).map Path.ofText)

/-- Why a variable is refused. -/
def refusal? (field : Field) (environment : Layer.Environment) : Option Failure :=
  match field.reading environment with
  | .ok _ => none
  | .error cause => some cause

theorem name_injective {left right : Field} (same : left.name = right.name) : left = right := by
  cases left <;> cases right <;> first | rfl | (revert same; decide)

theorem given_or (field : Field) (upper lower : Layer) :
    field.given (upper.or lower) = (field.given upper).or (field.given lower) := by
  cases field <;> rfl

theorem settled_ofLayer (field : Field) (layer : Layer) :
    field.settled (ofLayer layer) = (field.given layer).or field.builtIn := by
  cases field <;> simp [settled, ofLayer, given, builtIn, Option.or_some]

theorem eq_of_settled {left right : Settings}
    (same : ∀ field : Field, field.settled left = field.settled right) : left = right := by
  obtain ⟨⟩ := left
  obtain ⟨⟩ := right
  have host := same .host
  have port := same .port
  have token := same .token
  have sshUser := same .sshUser
  have sshPort := same .sshPort
  have insecure := same .insecure
  have timeout := same .timeout
  have scratch := same .scratch
  simp_all [settled]

theorem reading_congr {field : Field} {left right : Layer.Environment}
    (same : left field.name = right field.name) : field.reading left = field.reading right := by
  cases field <;> simp only [reading, Layer.readNumber, Layer.readSwitch, Layer.nonBlank, same]

end Field

open Settings.Field Layer

/-- Why the first variable that is refused is so. -/
def firstRefusal? (environment : Layer.Environment) : Option Failure :=
  Field.all.findSome? (refusal? · environment)

/-- The layers come to the settings: each is what the first layer that provides it says. -/
def Stack (flags named file : Layer) (settings : Settings) : Prop :=
  ∀ field : Field, field.settled settings =
    (((field.given flags).or (field.given named)).or (field.given file)).or field.builtIn

theorem ofEnvironment_cases (environment : Layer.Environment) :
    (∃ cause, ofEnvironment environment = .error cause ∧
        firstRefusal? environment = some cause) ∨
      ∃ named, ofEnvironment environment = .ok named ∧ firstRefusal? environment = none ∧
        ∀ field : Field, field.reading environment = .ok (field.given named) := by
  unfold ofEnvironment firstRefusal?
  simp only [Field.all, List.findSome?, refusal?, reading, name]
  cases port : readNumber environment Unsigned.largest16 "VRSYNC_PORT" with
  | error cause => exact .inl ⟨cause, rfl, rfl⟩
  | ok port =>
  cases sshPort : readNumber environment Unsigned.largest16 "VRSYNC_SSH_PORT" with
  | error cause => exact .inl ⟨cause, rfl, rfl⟩
  | ok sshPort =>
  cases insecure : readSwitch environment "VRSYNC_INSECURE" with
  | error cause => exact .inl ⟨cause, rfl, rfl⟩
  | ok insecure =>
  cases timeout : readNumber environment Unsigned.largest64 "VRSYNC_TIMEOUT" with
  | error cause => exact .inl ⟨cause, rfl, rfl⟩
  | ok timeout =>
    refine .inr ⟨_, rfl, rfl, fun field => ?_⟩
    cases field <;> first | rfl | assumption

theorem firstRefusal?_of_readings {environment : Layer.Environment} {named : Layer}
    (read : ∀ field : Field, field.reading environment = .ok (field.given named)) :
    firstRefusal? environment = none :=
  List.findSome?_eq_none_iff.2 fun field _ => by rw [refusal?, read]

section

variable (disk : Disk) (home : Path) (flags : Layer) (config : Option Path)
  (environment : Layer.Environment)

theorem resolve_eq_error_iff (cause : Failure) :
    resolve disk home flags config environment = .error cause ↔
      firstRefusal? environment = some cause ∨
        firstRefusal? environment = none ∧ fileLayer disk home config = .error cause := by
  unfold resolve
  rcases ofEnvironment_cases environment with ⟨first, failed, isFirst⟩ | ⟨named, read, none, -⟩
  · rw [failed, isFirst]
    simp [bind, Except.bind]
  · rw [read, none]
    cases fileLayer disk home config <;> simp [bind, Except.bind, pure, Except.pure]

theorem resolve_eq_ok_iff (settings : Settings) :
    resolve disk home flags config environment = .ok settings ↔ ∃ named file,
      (∀ field : Field, field.reading environment = .ok (field.given named)) ∧
        fileLayer disk home config = .ok file ∧ Stack flags named file settings := by
  have stacked : ∀ named file, Stack flags named file (ofLayer ((flags.or named).or file)) :=
    fun named file field => by rw [settled_ofLayer, given_or, given_or]
  unfold resolve
  rcases ofEnvironment_cases environment with ⟨first, failed, isFirst⟩ | ⟨named, read, -, readings⟩
  · rw [failed]
    refine iff_of_false (fun done => by cases done) ?_
    rintro ⟨named, file, readings, -⟩
    rw [firstRefusal?_of_readings readings] at isFirst
    cases isFirst
  · rw [read]
    constructor
    · intro done
      obtain ⟨_, ⟨⟩, done⟩ := bind_eq_ok done
      obtain ⟨file, found, ⟨⟩⟩ := bind_eq_ok done
      exact ⟨named, file, readings, found, stacked named file⟩
    · rintro ⟨other, file, others, found, isStack⟩
      have same : ofLayer ((flags.or named).or file) = settings := by
        refine eq_of_settled fun field => ?_
        have agrees : field.given named = field.given other :=
          Except.ok.inj ((readings field).symm.trans (others field))
        rw [stacked, isStack, agrees]
      rw [found, ← same]
      rfl

/-- A flag stands before the variable of its setting. -/
theorem resolve_shielded {field : Field} {other : Layer.Environment}
    (given : (field.given flags).isSome)
    (elsewhere : ∀ name, name ≠ field.name → other name = environment name)
    (alike : field.refusal? other = field.refusal? environment) :
    resolve disk home flags config other = resolve disk home flags config environment := by
  have same : ∀ another, another ≠ field → another.reading other = another.reading environment :=
    fun another different => reading_congr (elsewhere _ fun named => different (name_injective named))
  have refusals : firstRefusal? other = firstRefusal? environment := by
    refine congrArg (Field.all.findSome? ·) (funext fun another => ?_)
    by_cases isField : another = field
    · rw [isField, alike]
    · rw [refusal?, refusal?, same another isField]
  cases done : resolve disk home flags config environment with
  | error cause => rwa [resolve_eq_error_iff, refusals, ← resolve_eq_error_iff _ _ flags]
  | ok settings =>
    obtain ⟨named, file, readings, found, isStack⟩ := (resolve_eq_ok_iff _ _ _ _ _ _).1 done
    rcases ofEnvironment_cases other with ⟨cause, -, refused⟩ | ⟨hidden, -, -, readingsOther⟩
    · rw [refusals, firstRefusal?_of_readings readings] at refused
      cases refused
    · refine (resolve_eq_ok_iff _ _ _ _ _ _).2 ⟨hidden, file, readingsOther, found, ?_⟩
      intro another
      rw [isStack another]
      by_cases isField : another = field
      · obtain ⟨value, isGiven⟩ := Option.isSome_iff_exists.1 given
        subst isField
        rw [isGiven]
        rfl
      · have agrees : another.given hidden = another.given named := Except.ok.inj
          ((readingsOther another).symm.trans ((same another isField).trans (readings another)))
        rw [agrees]

/-- Settings are resolved layer by layer.  They fail with the first variable that is refused, and then
with the config file; each is taken from the first layer that provides it.  A setting that a flag
gives does not depend on its variable, as long as that is not refused or is refused alike, which
cannot happen to texts. -/
theorem resolve_layers :
    (∀ cause, resolve disk home flags config environment = .error cause ↔
      firstRefusal? environment = some cause ∨
        firstRefusal? environment = none ∧ fileLayer disk home config = .error cause) ∧
    (∀ settings, resolve disk home flags config environment = .ok settings ↔ ∃ named file,
      (∀ field : Field, field.reading environment = .ok (field.given named)) ∧
        fileLayer disk home config = .ok file ∧ Stack flags named file settings) ∧
    (∀ (field : Field) other, (field.given flags).isSome = true →
      (∀ name, name ≠ field.name → other name = environment name) →
      field.refusal? other = field.refusal? environment →
      resolve disk home flags config other = resolve disk home flags config environment) ∧
    ∀ field : Field, field ∉ [.port, .sshPort, .insecure, .timeout] →
      field.refusal? environment = none := by
  refine ⟨resolve_eq_error_iff disk home flags config environment,
    resolve_eq_ok_iff disk home flags config environment, fun field other => ?_, ?_⟩
  · exact resolve_shielded disk home flags config environment
  · intro field isText
    cases field <;> first | rfl | exact absurd (by decide) isText

/-- A flag does not hide that the variable of its setting is refused. -/
theorem resolve_unreadable_port :
    let flags : Layer := { port := some 8443 }
    let empty : Layer.Environment := fun _ => none
    let wordy : Layer.Environment := fun name =>
      if name = Field.port.name then some "https" else none
    (∀ name, name ≠ Field.port.name → wordy name = empty name) ∧
      (resolve { current := [], nodes := [] } ⟨true, ["home"]⟩ flags none empty).isOk = true ∧
      (resolve { current := [], nodes := [] } ⟨true, ["home"]⟩ flags none wordy).isOk = false := by
  intro flags empty wordy
  exact ⟨fun name other => if_neg other, by decide, by decide⟩

end

end OpsContent.Settings
