import PacketMonitor.Config.Overrides
import PacketMonitor.Proofs.Text.Numeral

namespace PacketMonitor.Config

open Text

/-- All that can be set. -/
inductive Setting where
  | nodeHost
  | nodePort
  | callsign
  | ports
  | initialBackoffMs
  | maxBackoffSecs
  | keepaliveSecs
  | settleMs
  | stepMs
  | retryPauseMs
  | capacity
  | subscriberQueue
  | maxSubscribers
  | fileLogging
  | archiveDir
  | consoleEcho
  | apiHost
  | apiPort
  | logLevel
  | logFormat
  deriving DecidableEq, Repr

/-- What something can be set to. -/
inductive Value where
  | text (s : String)
  | number (n : Nat)
  | switch (isOn : Bool)
  deriving DecidableEq, Repr

/-- All settings, part by part. -/
def Setting.all : List Setting :=
  [nodeHost, nodePort, callsign, ports, initialBackoffMs, maxBackoffSecs, keepaliveSecs, settleMs,
    stepMs, retryPauseMs, capacity, subscriberQueue, maxSubscribers, fileLogging, archiveDir,
    consoleEcho, apiHost, apiPort, logLevel, logFormat]

theorem Setting.mem_all (setting : Setting) : setting ∈ all := by
  cases setting <;> decide

/-- What a source says about the settings. -/
abbrev Layer := Setting → Option Value

/-- What layers that lie one over the other say: for each setting the first one that says
    anything decides. -/
def topmost (layers : List Layer) : Layer :=
  fun setting => layers.findSome? (· setting)

@[simp] theorem topmost_nil (setting : Setting) : topmost [] setting = none := rfl

@[simp] theorem topmost_cons (layer : Layer) (rest : List Layer) (setting : Setting) :
    topmost (layer :: rest) setting = (layer setting).or (topmost rest setting) := by
  rw [topmost, List.findSome?_cons]
  cases layer setting <;> rfl

/-- The settings of a configuration. Only the callsign may be left open. -/
def value? (c : Config) : Layer
  | .nodeHost => some (.text c.node.host)
  | .nodePort => some (.number c.node.port.toNat)
  | .callsign => c.node.callsign.map .text
  | .ports => some (.number c.node.ports.toNat)
  | .initialBackoffMs => some (.number c.session.initialBackoffMs.toNat)
  | .maxBackoffSecs => some (.number c.session.maxBackoffSecs.toNat)
  | .keepaliveSecs => some (.number c.session.keepaliveSecs.toNat)
  | .settleMs => some (.number c.session.settleMs.toNat)
  | .stepMs => some (.number c.session.stepMs.toNat)
  | .retryPauseMs => some (.number c.session.retryPauseMs.toNat)
  | .capacity => some (.number c.history.capacity.toNat)
  | .subscriberQueue => some (.number c.history.subscriberQueue.toNat)
  | .maxSubscribers => some (.number c.history.maxSubscribers.toNat)
  | .fileLogging => some (.switch c.output.fileLogging)
  | .archiveDir => some (.text c.output.archiveDir)
  | .consoleEcho => some (.switch c.output.consoleEcho)
  | .apiHost => some (.text c.api.host)
  | .apiPort => some (.number c.api.port.toNat)
  | .logLevel => some (.text c.logging.level)
  | .logFormat => some (.text c.logging.format)

/-- A configuration is nothing but its settings. -/
theorem value?_injective : Function.Injective value? := by
  intro c other heq
  have hsame : ∀ setting, c.value? setting = other.value? setting := congrFun heq
  have htext {given given' : String} (h : some (Value.text given) = some (.text given')) :
      given = given' := by simpa using h
  have hswitch {given given' : Bool} (h : some (Value.switch given) = some (.switch given')) :
      given = given' := by simpa using h
  have hword16 {given given' : UInt16}
      (h : some (Value.number given.toNat) = some (.number given'.toNat)) : given = given' := by
    simpa [UInt16.toNat_inj] using h
  have hword32 {given given' : UInt32}
      (h : some (Value.number given.toNat) = some (.number given'.toNat)) : given = given' := by
    simpa [UInt32.toNat_inj] using h
  have hword64 {given given' : UInt64}
      (h : some (Value.number given.toNat) = some (.number given'.toNat)) : given = given' := by
    simpa [UInt64.toNat_inj] using h
  have hcallsign : c.node.callsign = other.node.callsign :=
    Option.map_injective (fun _ _ => Value.text.inj) (hsame .callsign)
  obtain ⟨⟨_, _, _, _⟩, ⟨_, _, _, _, _, _⟩, ⟨_, _, _⟩, ⟨_, _, _⟩, ⟨_, _⟩, ⟨_, _⟩⟩ := c
  obtain ⟨⟨_, _, _, _⟩, ⟨_, _, _, _, _, _⟩, ⟨_, _, _⟩, ⟨_, _, _⟩, ⟨_, _⟩, ⟨_, _⟩⟩ := other
  simp only [Config.mk.injEq, Node.mk.injEq, Session.mk.injEq, History.mk.injEq, Output.mk.injEq,
    Api.mk.injEq, Logging.mk.injEq]
  exact ⟨⟨htext (hsame .nodeHost), hword16 (hsame .nodePort), hcallsign, hword32 (hsame .ports)⟩,
    ⟨hword64 (hsame .initialBackoffMs), hword64 (hsame .maxBackoffSecs),
      hword64 (hsame .keepaliveSecs), hword64 (hsame .settleMs), hword64 (hsame .stepMs),
      hword64 (hsame .retryPauseMs)⟩,
    ⟨hword64 (hsame .capacity), hword64 (hsame .subscriberQueue), hword64 (hsame .maxSubscribers)⟩,
    ⟨hswitch (hsame .fileLogging), htext (hsame .archiveDir), hswitch (hsame .consoleEcho)⟩,
    ⟨htext (hsame .apiHost), hword16 (hsame .apiPort)⟩,
    ⟨htext (hsame .logLevel), htext (hsame .logFormat)⟩⟩

/-- What a setting takes. -/
inductive Kind where
  | text
  | number (limit : Nat)
  | switch
  deriving DecidableEq, Repr

/-- What each setting takes. -/
def Setting.kind : Setting → Kind
  | nodeHost | callsign | archiveDir | apiHost | logLevel | logFormat => .text
  | fileLogging | consoleEcho => .switch
  | nodePort | apiPort => .number UInt16.size
  | ports => .number UInt32.size
  | _ => .number UInt64.size

/-- The variable that a setting is taken from. Not all of them have one. -/
def Setting.variable? : Setting → Option String
  | nodeHost => some "BPQMON_NODE_HOST"
  | nodePort => some "BPQMON_NODE_PORT"
  | callsign => some "BPQMON_CALLSIGN"
  | ports => some "BPQMON_PORTS"
  | capacity => some "BPQMON_BUFFER_SIZE"
  | fileLogging => some "BPQMON_FILE_LOG"
  | archiveDir => some "BPQMON_ARCHIVE_DIR"
  | consoleEcho => some "BPQMON_CONSOLE_OUT"
  | apiHost => some "BPQMON_API_HOST"
  | apiPort => some "BPQMON_API_PORT"
  | logLevel => some "BPQMON_LOG_LEVEL"
  | logFormat => some "BPQMON_LOG_FORMAT"
  | _ => none

/-- No variable belongs to two settings. -/
theorem Setting.eq_of_variable?_eq {setting other : Setting} {name : String}
    (hsetting : setting.variable? = some name) (hother : other.variable? = some name) :
    setting = other := by
  have hall : ∀ setting ∈ all, ∀ other ∈ all, setting.variable?.isSome = true →
      setting.variable? = other.variable? → setting = other := by decide +kernel
  exact hall setting setting.mem_all other other.mem_all (hsetting ▸ rfl) (hsetting.trans hother.symm)

theorem unsignedOf?_lt {limit n : Nat} {s : String} (hread : unsignedOf? limit s = some n) :
    n < limit := by
  obtain ⟨digits, -, -, -, hlt⟩ := unsigned?_eq_some_iff.mp hread
  exact hlt

/-- What a variable says about a setting. A number may be out of range, or none at all. -/
def Kind.ofText? : Kind → String → Option Value
  | text, s => some (.text s)
  | number limit, s => (unsignedOf? limit s).map .number
  | switch, s => some (.switch (isOn s))

/-- What the environment says. -/
def environmentLayer (env : Environment) : Layer :=
  fun setting => setting.variable? >>= env >>= setting.kind.ofText?

theorem environmentLayer_congr {env env' : Environment} {setting : Setting}
    (hsame : ∀ name, setting.variable? = some name → env' name = env name) :
    environmentLayer env' setting = environmentLayer env setting := by
  rw [environmentLayer, environmentLayer]
  cases hvariable : setting.variable? with
  | none => rfl
  | some name => simp [hsame name hvariable]

/-- A number that is not spelled by digits alone, or that is too large, counts for nothing. -/
theorem environmentLayer_of_unreadable {env : Environment} {setting : Setting} {limit : Nat}
    {name text : String} (hkind : setting.kind = .number limit)
    (hvariable : setting.variable? = some name) (htext : env name = some text)
    (hunreadable : ∀ digits, text.toList = digits ∨ text.toList = '+' :: digits →
      digits ≠ [] → (∀ digit ∈ digits, isDigitOf 10 digit = true) →
        limit ≤ digitsValue 10 digits) :
    environmentLayer env setting = none := by
  have hnone : unsignedOf? limit text = none := by
    cases hread : unsignedOf? limit text with
    | none => rfl
    | some n =>
      obtain ⟨digits, hform, ⟨hsome, hdigits⟩, rfl, hlt⟩ := unsigned?_eq_some_iff.mp hread
      exact absurd (hunreadable digits hform hsome hdigits) (Nat.not_le.mpr hlt)
  simp [environmentLayer, hvariable, htext, hkind, Kind.ofText?, hnone]

/-- What overrides say. -/
def Overrides.layer (o : Overrides) : Layer
  | .nodeHost => o.nodeHost.map .text
  | .nodePort => o.nodePort.map (.number ·.toNat)
  | .callsign => o.callsign.map .text
  | .ports => o.ports.map (.number ·.toNat)
  | .capacity => o.capacity.map (.number ·.toNat)
  | .fileLogging => o.fileLogging.map .switch
  | .archiveDir => o.archiveDir.map .text
  | .consoleEcho => o.consoleEcho.map .switch
  | .apiHost => o.apiHost.map .text
  | .apiPort => o.apiPort.map (.number ·.toNat)
  | .logLevel => o.logLevel.map .text
  | .logFormat => o.logFormat.map .text
  | _ => none

section Override

variable (c : Config) (o : Overrides)

theorem some_getD_eq_or {α : Type} (given : Option α) (lower : α) (toValue : α → Value) :
    some (toValue (given.getD lower)) = (given.map toValue).or (some (toValue lower)) := by
  cases given <;> rfl

/-- Overrides lie over a configuration. -/
theorem value?_override : (c.override o).value? = topmost [o.layer, c.value?] := by
  funext setting
  simp only [topmost_cons, topmost_nil, Option.or_none]
  cases setting with
  | nodeHost | fileLogging | archiveDir | consoleEcho | apiHost | logLevel | logFormat =>
    exact some_getD_eq_or ..
  | nodePort | apiPort => exact some_getD_eq_or _ _ fun n : UInt16 => .number n.toNat
  | ports => exact some_getD_eq_or _ _ fun n : UInt32 => .number n.toNat
  | capacity => exact some_getD_eq_or _ _ fun n : UInt64 => .number n.toNat
  | callsign =>
    simp only [value?, override, Overrides.layer]
    cases o.callsign <;> rfl
  | _ => rfl

/-- Overrides that were put over a configuration already change nothing. -/
theorem override_override : (c.override o).override o = c.override o := by
  apply value?_injective
  rw [value?_override, value?_override]
  funext setting
  simp only [topmost_cons, topmost_nil, Option.or_none]
  rw [← Option.or_assoc, Option.or_self]

end Override

theorem map_text (given : Option String) : given.map .text = given >>= Kind.text.ofText? := by
  cases given <;> rfl

theorem map_switch (given : Option String) :
    (given.map isOn).map .switch = given >>= Kind.switch.ofText? := by
  cases given <;> rfl

/-- Reading a number into its own type first changes nothing. -/
theorem map_number {α : Type} {limit : Nat} {ofNat : Nat → α} {toNat : α → Nat}
    (hround : ∀ n < limit, toNat (ofNat n) = n) (given : Option String) :
    ((given >>= unsignedOf? limit).map ofNat).map (fun a => Value.number (toNat a)) =
      given >>= (Kind.number limit).ofText? := by
  cases given with
  | none => rfl
  | some s =>
    cases hread : unsignedOf? limit s with
    | none => simp [Kind.ofText?, hread]
    | some n => simp [Kind.ofText?, hread, hround n (unsignedOf?_lt hread)]

/-- The overrides from the environment say what the environment says. -/
theorem layer_ofEnvironment (env : Environment) :
    (Overrides.ofEnvironment env).layer = environmentLayer env := by
  funext setting
  cases setting with
  | nodeHost | callsign | archiveDir | apiHost | logLevel | logFormat => exact map_text _
  | fileLogging | consoleEcho => exact map_switch _
  | nodePort | apiPort => exact map_number (fun n => UInt16.toNat_ofNat_of_lt') _
  | ports => exact map_number (fun n => UInt32.toNat_ofNat_of_lt') _
  | capacity => exact map_number (fun n => UInt64.toNat_ofNat_of_lt') _
  | _ => rfl

end PacketMonitor.Config
