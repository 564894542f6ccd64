import PacketMonitor.CommandLine.Program
import PacketMonitor.Proofs.Config.Document

namespace PacketMonitor

namespace Config

/-- The document in a file that loads. -/
def File.document? (file : File) : Option Toml.Entries :=
  (file.text.toOption >>= Toml.read?).filter fun entries => (ofToml? entries).isSome

/-- What is found in the node's own settings, which is a callsign at most. -/
def discoveredLayer (home? : Option String) (files : String → File) : Layer
  | .callsign => (discoveredCallsign? home? files).map .text
  | _ => none

section File

variable {file : File} {entries : Toml.Entries}

theorem isSome_ofToml?_of_document? (hdocument : file.document? = some entries) :
    (ofToml? entries).isSome = true :=
  (Option.filter_eq_some_iff.mp hdocument).2

theorem isPresent_of_document? (hdocument : file.document? = some entries) :
    file.isPresent = true := by
  cases file with
  | missing | throughFile | nameTooLong => cases hdocument
  | _ => rfl

theorem toOption_load (path : String) (file : File) :
    (load path file).toOption = file.document? >>= ofToml? := by
  rw [load, File.document?]
  cases file.text with
  | error message => rfl
  | ok text =>
    cases hread : Toml.read? text with
    | none => simp [hread, Except.toOption]
    | some entries =>
      cases hentries : ofToml? entries <;> simp [hread, hentries, Option.filter_some, Except.toOption]

theorem toOption_load_eq_none_iff (path : String) :
    (load path file).toOption = none ↔ file.document? = none := by
  rw [toOption_load]
  cases hdocument : file.document? with
  | none => simp
  | some entries =>
    have hsome := isSome_ofToml?_of_document? hdocument
    simp only [Option.bind_eq_bind, Option.bind_some, reduceCtorEq, iff_false]
    exact Option.isSome_iff_ne_none.mp hsome

end File

section Search

variable (env : Environment) (directory? : Option String) (files : String → File)

theorem findSome?_document? (paths : List String) :
    (paths.findSome? fun path => (files path).document?) >>= ofToml? =
      paths.findSome? fun path => (files path).document? >>= ofToml? := by
  induction paths with
  | nil => rfl
  | cons path rest ih =>
    rw [List.findSome?_cons, List.findSome?_cons]
    cases hdocument : (files path).document? with
    | none => exact ih
    | some entries =>
      obtain ⟨c, hc⟩ := Option.isSome_iff_exists.mp (isSome_ofToml?_of_document? hdocument)
      simp [hc]

/-- Only the first file that loads matters. -/
theorem search_eq :
    search env directory? files =
      (((((searchPaths directory?).findSome? fun path => (files path).document?) >>= ofToml?).getD {}).override
        (.ofEnvironment env)) := by
  have hloaded : (fun path => if (files path).isPresent then (load path (files path)).toOption else none) =
      fun path => (files path).document? >>= ofToml? := by
    funext path
    rw [toOption_load]
    split
    · rfl
    · rename_i habsent
      cases hdocument : (files path).document? with
      | none => rfl
      | some entries => exact absurd (isPresent_of_document? hdocument) habsent
  rw [search, hloaded, List.headD_eq_head?_getD, List.head?_filterMap, findSome?_document?]

end Search

end Config

namespace CommandLine

open Config Text

/-- What the options say. Switches can only turn things on. -/
def Flags.layer (f : Flags) : Layer
  | .nodeHost => f.host.map .text
  | .callsign => f.call.map .text
  | .ports => f.ports.map (.number ·.toNat)
  | .capacity => f.bufferSize.map (.number ·.toNat)
  | .fileLogging => if f.fileLog then some (.switch true) else none
  | .consoleEcho => if f.consoleOut then some (.switch true) else none
  | .apiHost => f.listen.map (.text ·.address.text)
  | .apiPort => f.listen.map (.number ·.port.toNat)
  | .logLevel => if f.debugInfo then some (.text "trace") else none
  | _ => none

theorem Flags.layer_overrides (f : Flags) : f.overrides.layer = f.layer := by
  funext setting
  cases setting with
  | fileLogging | consoleEcho | logLevel =>
    simp only [overrides, Overrides.layer, layer]
    split <;> rfl
  | apiHost | apiPort =>
    simp only [overrides, Overrides.layer, layer]
    cases f.listen <;> rfl
  | _ => rfl

/-- The document that settings are taken from: the one in the given file, or else the one in
    the first file that loads where files are looked for. -/
def document? (s : Surroundings) (flags : Flags) : Option Toml.Entries :=
  match flags.config with
  | some path => (s.files path).document?
  | none => (searchPaths s.directory).findSome? fun path => (s.files path).document?

/-- What the file says. Without one nothing is said. -/
def fileLayer (s : Surroundings) (flags : Flags) : Layer :=
  fun setting => document? s flags >>= fun entries => documentLayer entries setting

section Base

variable {s : Surroundings} {flags : Flags} {c : Config}

theorem baseConfig_eq (hbase : baseConfig s flags = .ok c) :
    c = ((document? s flags >>= ofToml?).getD {}).override (.ofEnvironment s.env) := by
  rw [baseConfig] at hbase
  rw [document?]
  cases hpath : flags.config with
  | some path =>
    rw [hpath] at hbase
    simp only [loadUnder] at hbase
    have hload := toOption_load path (s.files path)
    cases hresult : load path (s.files path) with
    | error error =>
      rw [hresult] at hbase
      cases hbase
    | ok loaded =>
      rw [hresult] at hbase hload
      cases hbase
      simp only [← hload]
      rfl
  | none =>
    rw [hpath] at hbase
    cases hbase
    exact search_eq s.env s.directory s.files

theorem isSome_ofToml?_of_mem_document? {entries : Toml.Entries}
    (hdocument : document? s flags = some entries) : (ofToml? entries).isSome = true := by
  rw [document?] at hdocument
  split at hdocument
  · exact isSome_ofToml?_of_document? hdocument
  · obtain ⟨path, -, hfile⟩ := List.exists_of_findSome?_eq_some hdocument
    exact isSome_ofToml?_of_document? hfile

/-- A file lies over what holds without one. -/
theorem value?_file :
    ((document? s flags >>= ofToml?).getD {}).value? = topmost [fileLayer s flags, value? {}] := by
  funext setting
  simp only [topmost_cons, topmost_nil, Option.or_none, fileLayer]
  cases hdocument : document? s flags with
  | none => rfl
  | some entries =>
    obtain ⟨loaded, hloaded⟩ := Option.isSome_iff_exists.mp (isSome_ofToml?_of_mem_document? hdocument)
    simpa [hloaded] using (follows_of_ofToml? hloaded setting).value_eq

end Base

section Effective

variable {s : Surroundings} {flags : Flags} {c : Config}

/-- A callsign that is found lies under one that is given. -/
theorem value?_withCallsign (c : Config) (home? : Option String) (files : String → File) :
    (c.withCallsign (discoveredCallsign? home? files)).value? =
      topmost [c.value?, discoveredLayer home? files] := by
  funext setting
  simp only [topmost_cons, topmost_nil, Option.or_none]
  cases setting with
  | callsign =>
    simp only [value?, withCallsign, discoveredLayer]
    cases c.node.callsign <;> rfl
  | _ => rfl

/-- Nothing holds without a source where something could be found. -/
theorem default_or_discovered (home? : Option String) (files : String → File) (setting : Setting) :
    (value? {} setting).or (discoveredLayer home? files setting) =
      (discoveredLayer home? files setting).or (value? {} setting) := by
  cases setting with
  | callsign => exact Option.or_none.symm
  | _ => rfl

theorem value?_effectiveConfig (heffective : effectiveConfig s flags = .ok c) :
    c.value? = topmost [flags.layer, environmentLayer s.env, fileLayer s flags,
      discoveredLayer s.home s.files, value? {}] := by
  unfold effectiveConfig at heffective
  cases hbase : baseConfig s flags with
  | error error =>
    rw [hbase] at heffective
    cases heffective
  | ok base =>
    rw [hbase] at heffective
    cases heffective
    rw [value?_withCallsign, value?_override, Flags.layer_overrides, baseConfig_eq hbase, value?_override,
      layer_ofEnvironment, value?_file]
    funext setting
    simp only [topmost_cons, topmost_nil, Option.or_none, Option.or_assoc, default_or_discovered]

/-- Nothing lies over the options. -/
theorem value?_of_option (heffective : effectiveConfig s flags = .ok c) (setting : Setting)
    {value : Value} (hoption : flags.layer setting = some value) : c.value? setting = some value := by
  rw [value?_effectiveConfig heffective, topmost_cons, hoption, Option.some_or]

theorem api_of_listen (heffective : effectiveConfig s flags = .ok c) {endpoint : Network.Endpoint}
    (hlisten : flags.listen = some endpoint) :
    c.api = { host := endpoint.address.text, port := endpoint.port } := by
  have hhost : c.value? .apiHost = some (.text endpoint.address.text) :=
    value?_of_option heffective .apiHost (by simp [Flags.layer, hlisten])
  have hport : c.value? .apiPort = some (.number endpoint.port.toNat) :=
    value?_of_option heffective .apiPort (by simp [Flags.layer, hlisten])
  rw [Api.mk.injEq]
  exact ⟨by simpa [value?] using hhost, UInt16.toNat_inj.mp (by simpa [value?] using hport)⟩

theorem effectiveConfig_eq_error_iff {error : LoadError} :
    effectiveConfig s flags = .error error ↔
      ∃ path, flags.config = some path ∧ load path (s.files path) = .error error := by
  rw [effectiveConfig, baseConfig]
  cases flags.config with
  | none => simp [Except.map]
  | some path =>
    cases hload : load path (s.files path) <;> simp [loadUnder, hload, Except.map]

end Effective

/-- Variables change nothing about the files. -/
theorem fileLayer_of_environment {s : Surroundings} (env : Environment) {flags others : Flags}
    (hconfig : others.config = flags.config) :
    fileLayer { s with env } others = fileLayer s flags := by
  have hdocument : document? { s with env } others = document? s flags := by
    simp only [document?, hconfig]
  funext setting
  rw [fileLayer, fileLayer, hdocument]

/-- Without a given file, the first one that loads is taken where files are looked for. It is
    there, and those before it say nothing. -/
theorem fileLayer_of_search {s : Surroundings} {flags : Flags} (hconfig : flags.config = none) :
    (∀ path ∈ searchPaths s.directory, (load path (s.files path)).toOption = none) ∧
        fileLayer s flags = (fun _ => none) ∨
      ∃ earlier path later entries, searchPaths s.directory = earlier ++ path :: later ∧
        (∀ other ∈ earlier, (load other (s.files other)).toOption = none) ∧
        (s.files path).isPresent = true ∧ (s.files path).document? = some entries ∧
        fileLayer s flags = documentLayer entries := by
  have hdocument : document? s flags =
      (searchPaths s.directory).findSome? fun path => (s.files path).document? := by
    rw [document?, hconfig]
  cases hfound : document? s flags with
  | none =>
    refine .inl ⟨fun path hpath => ?_, funext fun setting => by rw [fileLayer, hfound]; rfl⟩
    rw [hdocument, List.findSome?_eq_none_iff] at hfound
    exact (toOption_load_eq_none_iff path).mpr (hfound path hpath)
  | some entries =>
    have hlayer : fileLayer s flags = documentLayer entries := by
      funext setting
      rw [fileLayer, hfound]
      rfl
    rw [hdocument, List.findSome?_eq_some_iff] at hfound
    obtain ⟨earlier, path, later, hpaths, hfile, hearlier⟩ := hfound
    exact .inr ⟨earlier, path, later, entries, hpaths,
      fun other hother => (toOption_load_eq_none_iff other).mpr (hearlier other hother),
      isPresent_of_document? hfile, hfile, hlayer⟩

/-- Every setting has the value from the highest layer that has one for it: the options, the
    environment, the file, a callsign that is found, and what holds without any of them. A number
    in the environment that cannot be read or is too large counts for nothing, and so does a file
    with anything like that in it. Each variable and each place in a file belongs to one setting,
    and a setting changes only with its own sources. Only a file that is asked for has to load. -/
theorem effectiveConfig_layers (s : Surroundings) (flags : Flags) :
    (∀ error, effectiveConfig s flags = .error error ↔
      ∃ path, flags.config = some path ∧ load path (s.files path) = .error error) ∧
    (flags.config = none →
      (∀ path ∈ searchPaths s.directory, (load path (s.files path)).toOption = none) ∧
          fileLayer s flags = (fun _ => none) ∨
        ∃ earlier path later entries, searchPaths s.directory = earlier ++ path :: later ∧
          (∀ other ∈ earlier, (load other (s.files other)).toOption = none) ∧
          (s.files path).isPresent = true ∧ (s.files path).document? = some entries ∧
          fileLayer s flags = documentLayer entries) ∧
    (∀ entries, document? s flags = some entries → ∀ setting,
      (∀ node, given? entries setting = some node → (setting.kind.ofToml? node).isSome = true) ∧
      ∀ origin inner, entries.get? setting.part.name = some (.table origin inner) →
        given? entries setting = inner.lookup setting.key) ∧
    (∀ c, effectiveConfig s flags = .ok c →
      c.value? = topmost [flags.layer, environmentLayer s.env, fileLayer s flags,
        discoveredLayer s.home s.files, value? {}] ∧
      (∀ setting limit name text, setting.kind = .number limit → setting.variable? = some name →
        s.env name = some text →
        (∀ digits, text.toList = digits ∨ text.toList = '+' :: digits →
          digits ≠ [] → (∀ digit ∈ digits, isDigitOf 10 digit = true) →
            limit ≤ digitsValue 10 digits) →
        c.value? setting = topmost [flags.layer, fileLayer s flags, discoveredLayer s.home s.files,
          value? {}] setting) ∧
      (∀ endpoint, flags.listen = some endpoint →
        c.api = { host := endpoint.address.text, port := endpoint.port }) ∧
      (flags.consoleOut = true → c.output.consoleEcho = true) ∧
      (flags.fileLog = true → c.output.fileLogging = true) ∧
      (flags.debugInfo = true → c.logging.level = "trace") ∧
      ∀ env others changed, others.config = flags.config →
        effectiveConfig { s with env } others = .ok changed →
          ∀ setting : Setting, (∀ name, setting.variable? = some name → env name = s.env name) →
            others.layer setting = flags.layer setting → changed.value? setting = c.value? setting) ∧
    (∀ setting other : Setting, setting ≠ other →
      (∀ name, setting.variable? = some name → other.variable? ≠ some name) ∧
      (setting.part = other.part → setting.key ≠ other.key)) ∧
    ∀ c : Config, (c.override (.ofEnvironment s.env)).override (.ofEnvironment s.env) =
      c.override (.ofEnvironment s.env) := by
  refine ⟨fun _ => effectiveConfig_eq_error_iff, fileLayer_of_search, fun entries hdocument => ?_,
    fun c heffective => ?_, fun setting other hne => ⟨?_, ?_⟩, fun c => override_override c _⟩
  · obtain ⟨loaded, hloaded⟩ := Option.isSome_iff_exists.mp (isSome_ofToml?_of_mem_document? hdocument)
    exact fun setting => ⟨(follows_of_ofToml? hloaded setting).usable, fun _ _ => given?_of_table⟩
  · have hvalue := value?_effectiveConfig heffective
    refine ⟨hvalue, ?_, fun endpoint hlisten => api_of_listen heffective hlisten, fun hon => ?_,
      fun hon => ?_, fun hon => ?_, ?_⟩
    · intro setting limit name text hkind hvariable htext hunreadable
      simp only [hvalue, topmost_cons,
        environmentLayer_of_unreadable hkind hvariable htext hunreadable, Option.none_or]
    · have hswitch : c.value? .consoleEcho = some (.switch true) :=
        value?_of_option heffective .consoleEcho (if_pos hon)
      simpa [value?] using hswitch
    · have hswitch : c.value? .fileLogging = some (.switch true) :=
        value?_of_option heffective .fileLogging (if_pos hon)
      simpa [value?] using hswitch
    · have hlevel : c.value? .logLevel = some (.text "trace") :=
        value?_of_option heffective .logLevel (if_pos hon)
      simpa [value?] using hlevel
    · intro env others changed hconfig hchanged setting hvariable hoption
      rw [value?_effectiveConfig hchanged, hvalue]
      simp only [topmost_cons, topmost_nil, hoption, environmentLayer_congr hvariable,
        fileLayer_of_environment env hconfig]
  · exact fun name hsetting hother => hne (Setting.eq_of_variable?_eq hsetting hother)
  · exact fun hpart hkey => hne (Setting.eq_of_key_eq hpart hkey)

/-- Each layer decides something here: switches and an address are given as options, the
    environment has a port and two useless numbers, the file that loads is the second one, and
    the callsign is found. With less in the environment and no switches the port is the same. -/
theorem effectiveConfig_layers_of_all_sources :
    let texts : List (String × String) :=
      [("/home/op/.config/bpqmon/config.toml", "[node]\nhost = 1\n"),
        ("/etc/bpqmon/config.toml",
          "[node]\nhost = \"hill\"\nport = 1\nports = 3\n[output]\narchive_dir = \"logs\"\n"),
        ("/home/op/node.ini", "local-op-callsign: M0XYZ\n")]
    let assigned : List (String × String) :=
      [("BPQMON_NODE_PORT", "+9000"), ("BPQMON_PORTS", "4294967296"),
        ("BPQMON_BUFFER_SIZE", "ten"), ("BPQMON_LOG_LEVEL", "debug"), ("BPQMON_FILE_LOG", "off")]
    let s : Surroundings :=
      { env := fun name => assigned.lookup name
        directory := some "/home/op/.config"
        home := some "/home/op"
        files := fun path =>
          ((texts.lookup path).map fun text => .content (Utf8.encode text.toList)).getD .missing
        bind := fun _ => .ok () }
    let flags : Flags :=
      { listen := some ⟨.four #v[127, 0, 0, 1], 80⟩, consoleOut := true, fileLog := true,
        debugInfo := true }
    let c : Config :=
      { node := { host := "hill", port := 9000, callsign := some "M0XYZ", ports := 3 }
        output := { fileLogging := true, archiveDir := "logs", consoleEcho := true }
        api := { host := "127.0.0.1", port := 80 }
        logging := { level := "trace" } }
    let env : Environment := fun name => (assigned.take 1).lookup name
    effectiveConfig s flags = .ok c ∧
      c.value? = topmost [flags.layer, environmentLayer s.env, fileLayer s flags,
        discoveredLayer s.home s.files, value? {}] ∧
      c.value? .ports = topmost [flags.layer, fileLayer s flags, discoveredLayer s.home s.files,
        value? {}] .ports ∧
      c.api = { host := "127.0.0.1", port := 80 } ∧ c.output.consoleEcho = true ∧
      c.output.fileLogging = true ∧ c.logging.level = "trace" ∧
      ∃ changed, effectiveConfig { s with env } {} = .ok changed ∧
        changed.value? .nodePort = c.value? .nodePort := by
  intro texts assigned s flags c env
  have hok : ∀ (result : Except LoadError Config) (c : Config),
      result.toOption = some c → result = .ok c := by
    rintro (error | loaded) c hsome
    · cases hsome
    · rw [Option.some.inj hsome]
  have heffective : effectiveConfig s flags = .ok c := hok _ _ (by decide +kernel)
  let changed : Config :=
    { node := { host := "hill", port := 9000, callsign := some "M0XYZ", ports := 3 }
      output := { archiveDir := "logs" } }
  have hchanged : effectiveConfig { s with env } {} = .ok changed := hok _ _ (by decide +kernel)
  obtain ⟨-, -, -, heach, -, -⟩ := effectiveConfig_layers s flags
  obtain ⟨hvalue, hnumber, hlisten, hconsole, hfile, hdebug, hframe⟩ := heach c heffective
  refine ⟨heffective, hvalue, ?_, hlisten _ rfl, hconsole rfl, hfile rfl, hdebug rfl, changed, hchanged, ?_⟩
  · refine hnumber .ports UInt32.size "BPQMON_PORTS" "4294967296" rfl rfl (by decide +kernel) ?_
    rintro digits (rfl | hplus) - -
    · decide +kernel
    · exact absurd (List.cons.inj hplus).1 (by decide)
  · refine hframe env {} changed rfl hchanged .nodePort ?_ rfl
    intro name hname
    obtain rfl := Option.some.inj hname
    decide +kernel

end CommandLine

end PacketMonitor
