import PacketMonitor.Config.File
import PacketMonitor.Proofs.Config.Layers

namespace PacketMonitor.Config

/-- The parts that a document has. -/
inductive Part where
  | node
  | session
  | history
  | output
  | api
  | logging
  deriving DecidableEq, Repr

namespace Part

/-- The key of a part. -/
def name : Part → String
  | node => "node"
  | session => "session"
  | history => "history"
  | output => "output"
  | api => "api"
  | logging => "logging"

/-- The settings in a part, in order. -/
def settings : Part → List Setting
  | node => [.nodeHost, .nodePort, .callsign, .ports]
  | session =>
    [.initialBackoffMs, .maxBackoffSecs, .keepaliveSecs, .settleMs, .stepMs, .retryPauseMs]
  | history => [.capacity, .subscriberQueue, .maxSubscribers]
  | output => [.fileLogging, .archiveDir, .consoleEcho]
  | api => [.apiHost, .apiPort]
  | logging => [.logLevel, .logFormat]

/-- How many of them an array has to give. -/
def required : Part → Nat
  | node => 3
  | _ => 0

end Part

namespace Setting

/-- The part that a setting is in. -/
def part : Setting → Part
  | nodeHost | nodePort | callsign | ports => .node
  | capacity | subscriberQueue | maxSubscribers => .history
  | fileLogging | archiveDir | consoleEcho => .output
  | apiHost | apiPort => .api
  | logLevel | logFormat => .logging
  | _ => .session

/-- The key of a setting within its part. -/
def key : Setting → String
  | nodeHost | apiHost => "host"
  | nodePort | apiPort => "port"
  | callsign => "callsign"
  | ports => "ports"
  | initialBackoffMs => "initial_backoff_ms"
  | maxBackoffSecs => "max_backoff_secs"
  | keepaliveSecs => "keepalive_secs"
  | settleMs => "settle_ms"
  | stepMs => "step_ms"
  | retryPauseMs => "retry_pause_ms"
  | capacity => "capacity"
  | subscriberQueue => "subscriber_queue"
  | maxSubscribers => "max_subscribers"
  | fileLogging => "file_logging"
  | archiveDir => "archive_dir"
  | consoleEcho => "console_echo"
  | logLevel => "level"
  | logFormat => "format"

/-- No place in a document belongs to two settings. -/
theorem eq_of_key_eq {setting other : Setting} (hpart : setting.part = other.part)
    (hkey : setting.key = other.key) : setting = other := by
  have hall : ∀ setting ∈ all, ∀ other ∈ all, setting.part = other.part →
      setting.key = other.key → setting = other := by decide +kernel
  exact hall setting setting.mem_all other other.mem_all hpart hkey

end Setting

/-- What a document says about a setting. -/
def Kind.ofToml? : Kind → Toml.Node → Option Value
  | text, .text s => some (.text s)
  | number limit, .integer n => if 0 ≤ n ∧ n < limit then some (.number n.toNat) else none
  | switch, .boolean b => some (.switch b)
  | _, _ => none

/-- What a document gives to a setting, under its key in a table or at its place in an array. -/
def given? (entries : Toml.Entries) (setting : Setting) : Option Toml.Node :=
  let part := setting.part
  sectionValues? (part.settings.map Setting.key) part.required (entries.get? part.name) >>=
    fun values => values[part.settings.idxOf setting]?.join

/-- What a document says. -/
def documentLayer (entries : Toml.Entries) : Layer :=
  fun setting => given? entries setting >>= setting.kind.ofToml?

theorem given?_of_table {entries inner : Toml.Entries} {origin : Toml.Origin} {setting : Setting}
    (htable : entries.get? setting.part.name = some (.table origin inner)) :
    given? entries setting = inner.lookup setting.key := by
  simp only [given?, htable]
  cases setting <;> rfl

/-- A way to read a setting accepts just what the setting takes. -/
def Reads {α : Type} (kind : Kind) (read : Toml.Node → Option α) (toValue : α → Option Value) : Prop :=
  ∀ node a, read node = some a → ∃ value, kind.ofToml? node = some value ∧ toValue a = some value

theorem reads_text : Reads .text text? fun s => some (.text s) := by
  intro node s hread
  cases node <;> cases hread
  exact ⟨_, rfl, rfl⟩

theorem reads_callsign : Reads .text (fun node => (text? node).map some) (Option.map .text) := by
  intro node callsign hread
  obtain ⟨s, htext, rfl⟩ := Option.map_eq_some_iff.mp hread
  exact reads_text node s htext

theorem reads_flag : Reads .switch flag? fun b => some (.switch b) := by
  intro node b hread
  cases node <;> cases hread
  exact ⟨_, rfl, rfl⟩

theorem reads_below {α : Type} {limit : Nat} {ofNat : Nat → α} {toNat : α → Nat}
    (hround : ∀ n < limit, toNat (ofNat n) = n) :
    Reads (.number limit) (fun node => (below? limit node).map ofNat)
      fun a => some (.number (toNat a)) := by
  intro node a hread
  obtain ⟨n, hbelow, rfl⟩ := Option.map_eq_some_iff.mp hread
  cases node with
  | integer i =>
    simp only [below?, Option.ite_none_right_eq_some, Option.some.injEq] at hbelow
    obtain ⟨hrange, rfl⟩ := hbelow
    exact ⟨_, if_pos hrange, by simp only [hround i.toNat (by omega)]⟩
  | _ => cases hbelow

theorem reads_word16 : Reads (.number UInt16.size) word16? fun n => some (.number n.toNat) :=
  reads_below fun _ => UInt16.toNat_ofNat_of_lt'

theorem reads_word32 : Reads (.number UInt32.size) word32? fun n => some (.number n.toNat) :=
  reads_below fun _ => UInt32.toNat_ofNat_of_lt'

theorem reads_word64 : Reads (.number UInt64.size) word64? fun n => some (.number n.toNat) :=
  reads_below fun _ => UInt64.toNat_ofNat_of_lt'

/-- A setting has the value that a document gives to it, or else the one that it has without
    a document. -/
structure Follows (entries : Toml.Entries) (c : Config) (setting : Setting) : Prop where
  value_eq : c.value? setting = topmost [documentLayer entries, value? {}] setting
  usable : ∀ node, given? entries setting = some node → (setting.kind.ofToml? node).isSome = true

section Parts

variable {entries : Toml.Entries} {c : Config} {setting : Setting}

theorem follows_of_setting? {values : List (Option Toml.Node)}
    (hvalues : sectionValues? (setting.part.settings.map Setting.key) setting.part.required
      (entries.get? setting.part.name) = some values)
    {α : Type} {read : Toml.Node → Option α} {toValue : α → Option Value} {default a : α}
    (hreads : Reads setting.kind read toValue)
    (hread : setting? default read values[setting.part.settings.idxOf setting]?.join = some a)
    (hvalue : c.value? setting = toValue a)
    (hdefault : ({} : Config).value? setting = toValue default) : Follows entries c setting := by
  have hgiven : given? entries setting = values[setting.part.settings.idxOf setting]?.join := by
    rw [given?, hvalues]
    rfl
  cases hplace : values[setting.part.settings.idxOf setting]?.join with
  | none =>
    rw [hplace] at hgiven hread
    obtain rfl : default = a := Option.some.inj hread
    refine ⟨?_, by simp [hgiven]⟩
    simp [documentLayer, hgiven, hvalue, hdefault]
  | some node =>
    rw [hplace] at hgiven hread
    obtain ⟨value, hkind, ha⟩ := hreads node a hread
    refine ⟨?_, fun other hother => ?_⟩
    · simp [documentLayer, hgiven, hkind, hvalue, ha]
    · obtain rfl := Option.some.inj (hgiven.symm.trans hother)
      rw [hkind]
      rfl

theorem follows_node (hread : Node.ofToml? (entries.get? "node") = some c.node)
    (hpart : setting.part = .node) : Follows entries c setting := by
  unfold Node.ofToml? at hread
  split at hread
  · rename_i host port callsign ports hvalues
    simp only [Option.bind_eq_bind, Option.bind_eq_some_iff] at hread
    obtain ⟨_, hhost, _, hport, _, hcallsign, _, hports, hread⟩ := hread
    have hnode := Option.some.inj hread
    cases setting with
    | nodeHost => exact follows_of_setting? hvalues reads_text hhost (by rw [value?, ← hnode]) rfl
    | nodePort => exact follows_of_setting? hvalues reads_word16 hport (by rw [value?, ← hnode]) rfl
    | callsign =>
      exact follows_of_setting? hvalues reads_callsign hcallsign (by rw [value?, ← hnode]) rfl
    | ports => exact follows_of_setting? hvalues reads_word32 hports (by rw [value?, ← hnode]) rfl
    | _ => cases hpart
  · cases hread

theorem follows_session (hread : Session.ofToml? (entries.get? "session") = some c.session)
    (hpart : setting.part = .session) : Follows entries c setting := by
  unfold Session.ofToml? at hread
  split at hread
  · rename_i initial limit keepalive settle step retry hvalues
    simp only [Option.bind_eq_bind, Option.bind_eq_some_iff] at hread
    obtain ⟨_, hinitial, _, hlimit, _, hkeepalive, _, hsettle, _, hstep, _, hretry, hread⟩ := hread
    have hsession := Option.some.inj hread
    cases setting with
    | initialBackoffMs =>
      exact follows_of_setting? hvalues reads_word64 hinitial (by rw [value?, ← hsession]) rfl
    | maxBackoffSecs =>
      exact follows_of_setting? hvalues reads_word64 hlimit (by rw [value?, ← hsession]) rfl
    | keepaliveSecs =>
      exact follows_of_setting? hvalues reads_word64 hkeepalive (by rw [value?, ← hsession]) rfl
    | settleMs =>
      exact follows_of_setting? hvalues reads_word64 hsettle (by rw [value?, ← hsession]) rfl
    | stepMs => exact follows_of_setting? hvalues reads_word64 hstep (by rw [value?, ← hsession]) rfl
    | retryPauseMs =>
      exact follows_of_setting? hvalues reads_word64 hretry (by rw [value?, ← hsession]) rfl
    | _ => cases hpart
  · cases hread

theorem follows_history (hread : History.ofToml? (entries.get? "history") = some c.history)
    (hpart : setting.part = .history) : Follows entries c setting := by
  unfold History.ofToml? at hread
  split at hread
  · rename_i capacity queue limit hvalues
    simp only [Option.bind_eq_bind, Option.bind_eq_some_iff] at hread
    obtain ⟨_, hcapacity, _, hqueue, _, hlimit, hread⟩ := hread
    have hhistory := Option.some.inj hread
    cases setting with
    | capacity =>
      exact follows_of_setting? hvalues reads_word64 hcapacity (by rw [value?, ← hhistory]) rfl
    | subscriberQueue =>
      exact follows_of_setting? hvalues reads_word64 hqueue (by rw [value?, ← hhistory]) rfl
    | maxSubscribers =>
      exact follows_of_setting? hvalues reads_word64 hlimit (by rw [value?, ← hhistory]) rfl
    | _ => cases hpart
  · cases hread

theorem follows_output (hread : Output.ofToml? (entries.get? "output") = some c.output)
    (hpart : setting.part = .output) : Follows entries c setting := by
  unfold Output.ofToml? at hread
  split at hread
  · rename_i logging dir echo hvalues
    simp only [Option.bind_eq_bind, Option.bind_eq_some_iff] at hread
    obtain ⟨_, hlogging, _, hdir, _, hecho, hread⟩ := hread
    have houtput := Option.some.inj hread
    cases setting with
    | fileLogging =>
      exact follows_of_setting? hvalues reads_flag hlogging (by rw [value?, ← houtput]) rfl
    | archiveDir => exact follows_of_setting? hvalues reads_text hdir (by rw [value?, ← houtput]) rfl
    | consoleEcho => exact follows_of_setting? hvalues reads_flag hecho (by rw [value?, ← houtput]) rfl
    | _ => cases hpart
  · cases hread

theorem follows_api (hread : Api.ofToml? (entries.get? "api") = some c.api)
    (hpart : setting.part = .api) : Follows entries c setting := by
  unfold Api.ofToml? at hread
  split at hread
  · rename_i host port hvalues
    simp only [Option.bind_eq_bind, Option.bind_eq_some_iff] at hread
    obtain ⟨_, hhost, _, hport, hread⟩ := hread
    have hapi := Option.some.inj hread
    cases setting with
    | apiHost => exact follows_of_setting? hvalues reads_text hhost (by rw [value?, ← hapi]) rfl
    | apiPort => exact follows_of_setting? hvalues reads_word16 hport (by rw [value?, ← hapi]) rfl
    | _ => cases hpart
  · cases hread

theorem follows_logging (hread : Logging.ofToml? (entries.get? "logging") = some c.logging)
    (hpart : setting.part = .logging) : Follows entries c setting := by
  unfold Logging.ofToml? at hread
  split at hread
  · rename_i level format hvalues
    simp only [Option.bind_eq_bind, Option.bind_eq_some_iff] at hread
    obtain ⟨_, hlevel, _, hformat, hread⟩ := hread
    have hlogging := Option.some.inj hread
    cases setting with
    | logLevel => exact follows_of_setting? hvalues reads_text hlevel (by rw [value?, ← hlogging]) rfl
    | logFormat => exact follows_of_setting? hvalues reads_text hformat (by rw [value?, ← hlogging]) rfl
    | _ => cases hpart
  · cases hread

end Parts

/-- A document that can be read gives every setting its own value, and leaves the others as
    they are without it. -/
theorem follows_of_ofToml? {entries : Toml.Entries} {c : Config} (hread : ofToml? entries = some c)
    (setting : Setting) : Follows entries c setting := by
  simp only [ofToml?, Option.bind_eq_bind, Option.bind_eq_some_iff] at hread
  obtain ⟨_, hnode, _, hsession, _, hhistory, _, houtput, _, hapi, _, hlogging, hc⟩ := hread
  obtain rfl := Option.some.inj hc
  cases hpart : setting.part with
  | node => exact follows_node hnode hpart
  | session => exact follows_session hsession hpart
  | history => exact follows_history hhistory hpart
  | output => exact follows_output houtput hpart
  | api => exact follows_api hapi hpart
  | logging => exact follows_logging hlogging hpart

end PacketMonitor.Config
