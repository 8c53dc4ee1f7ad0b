/-
  A run by rules.

  The rules say what a run comes to without saying how it is carried out: where the configuration
  comes from (`Source`), what it is (`Configures`), which tree the input holds (`Holds`), how a report
  is printed (`Prints`) and what is reported (`Reports`).  A rule for a later stage asks that the
  stages before it succeeded, so of several things that are wrong the first decides (`Runs`).

  Each rule set is matched with the function that carries it out; together they say that a run comes
  to exactly what the rules allow (`run_iff_runs`).
-/
import TypeTree.Proofs.CommandLine
import TypeTree.Proofs.Stages

namespace TypeTree.Cli

/-! ## Rules -/

/-- Where the configuration comes from, by the path that is asked for. -/
inductive Source (d : Directory) : Option String → Option String → Prop where
  | asked (path : String) : Source d (some path) (some path)
  | lenient (there : d.isFile "./.typewalk.jsonc") : Source d none (some "./.typewalk.jsonc")
  | strict (missing : ¬ d.isFile "./.typewalk.jsonc") (there : d.isFile "./.typewalk.json") :
    Source d none (some "./.typewalk.json")
  | nowhere (missing : ¬ d.isFile "./.typewalk.jsonc") (missing' : ¬ d.isFile "./.typewalk.json") :
    Source d none none

/-- What the options and the directory configure.  A format that is asked for replaces the one of
    the configuration, but does not make up for a configuration that fails. -/
inductive Configures (d : Directory) (stdin : ByteArray) (o : Options) :
    Except Failure Config → Prop where
  | unread {path : String} {fault : ReadFault} (source : Source d o.config? (some path))
    (read : d.read stdin path = .error fault) :
    Configures d stdin o (.error (.configUnread path fault))
  | invalid {path text : String} {e : ConfigError} (source : Source d o.config? (some path))
    (read : d.read stdin path = .ok text) (decoded : Config.ofText text = .error e) :
    Configures d stdin o (.error (.configInvalid e))
  | decoded {path text : String} {c : Config} (source : Source d o.config? (some path))
    (read : d.read stdin path = .ok text) (decoded : Config.ofText text = .ok c) :
    Configures d stdin o (.ok { c with format := o.format?.getD c.format })
  | default (source : Source d o.config? none) :
    Configures d stdin o (.ok { format := o.format?.getD .text })

/-- Which tree the input at a path holds. -/
inductive Holds (d : Directory) (stdin : ByteArray) (path : String) :
    Except Failure Json → Prop where
  | unread {fault : ReadFault} (read : readText d stdin path = .error fault) :
    Holds d stdin path (.error (.inputUnread path fault))
  | invalid {text : String} {e : Json.ReadError} (read : readText d stdin path = .ok text)
    (parsed : Json.read text = .error e) : Holds d stdin path (.error (.inputInvalid e))
  | parsed {text : String} {tree : Json} (read : readText d stdin path = .ok text)
    (parsed : Json.read text = .ok tree) : Holds d stdin path (.ok tree)

/-- What is printed of a report, by its format and its renderings in text and in JSON. -/
inductive Prints : Format → Except Overflow String → String → Except Stop String → Prop where
  | text (text json : String) : Prints .text (.ok text) json (.ok text)
  | overflow (o : Overflow) (json : String) : Prints .text (.error o) json (.error (.overflowed o))
  | json (text : Except Overflow String) (json : String) : Prints .json text json (.ok (json ++ "\n"))

/-- What a command reports: the text that is printed, or what stops it. -/
inductive Reports (d : Directory) (stdin : ByteArray) (c : Config) :
    Command → Except Stop String → Prop where
  | noTree {command : Command} {path : String} {f : Failure}
    (asked : command.input? = some path) (input : Holds d stdin path (.error f)) :
    Reports d stdin c command (.error (.failed f))
  | untraced {path : String} {tree : Json} {f : Fault} (input : Holds d stdin path (.ok tree))
    (fault : trace tree = .error f) :
    Reports d stdin c (.walk path) (.error (.failed (.treeFaulty f)))
  | traced {path : String} {tree : Json} {ls : List Line} {r : Except Stop String}
    (input : Holds d stdin path (.ok tree)) (traced : trace tree = .ok ls)
    (printed : Prints c.format (Report.Text.trace c ls) (Report.Json.trace c ls).pretty r) :
    Reports d stdin c (.walk path) r
  | uncounted {path : String} {tree : Json} {f : Fault} (input : Holds d stdin path (.ok tree))
    (fault : stats tree = .error f) :
    Reports d stdin c (.stats path) (.error (.failed (.treeFaulty f)))
  | counted {path : String} {tree : Json} {s : Stats} {r : Except Stop String}
    (input : Holds d stdin path (.ok tree)) (counted : stats tree = .ok s)
    (printed : Prints c.format (.ok (Report.Text.stats s)) (Report.Json.stats s).pretty r) :
    Reports d stdin c (.stats path) r
  | noKind {tag : String} (unknown : ∀ k : Kind, k.tag ≠ tag) :
    Reports d stdin c (.schema (some tag)) (.error (.failed (.treeFaulty (.unknownTag tag))))
  | oneKind {k : Kind} {r : Except Stop String}
    (printed : Prints c.format (.ok (Report.Text.schema [k])) (Report.Json.schema [k]).pretty r) :
    Reports d stdin c (.schema (some k.tag)) r
  | allKinds {r : Except Stop String}
    (printed : Prints c.format (.ok (Report.Text.schema Kind.all))
      (Report.Json.schema Kind.all).pretty r) :
    Reports d stdin c (.schema none) r

/-- How the run of an invocation ends and what it prints.  The input is what the configuration left
    of the standard input, if it is read from there. -/
inductive Runs (d : Directory) (stdin : ByteArray) (i : Invocation) : Ending → String → Prop where
  | unconfigured {f : Failure} (config : Configures d stdin i.options (.error f)) :
    Runs d stdin i (.stopped (.failed f)) ""
  | unreported {c : Config} {stop : Stop} (config : Configures d stdin i.options (.ok c))
    (report : Reports d (unconsumed d stdin i.options) c i.command (.error stop)) :
    Runs d stdin i (.stopped stop) ""
  | reported {c : Config} {text : String} (config : Configures d stdin i.options (.ok c))
    (report : Reports d (unconsumed d stdin i.options) c i.command (.ok text)) :
    Runs d stdin i .finished text

/-! ## Each stage follows its rules -/

variable {d : Directory} {stdin : ByteArray}

/-- The source is the path that is asked for, and else the first of the two that is there. -/
theorem source_iff {path? source? : Option String} :
    Source d path? source? ↔ path?.or (configPaths.find? d.isFile) = source? := by
  constructor
  · intro h
    cases h with
    | asked path => rfl
    | lenient there => simp [configPaths, there]
    | strict missing there => simp [configPaths, missing, there]
    | nowhere missing missing' => simp [configPaths, missing, missing']
  · rintro rfl
    cases path? with
    | some path => exact .asked path
    | none =>
      by_cases hlenient : d.isFile "./.typewalk.jsonc"
      · simpa [configPaths, hlenient] using Source.lenient hlenient
      · by_cases hstrict : d.isFile "./.typewalk.json"
        · simpa [configPaths, hlenient, hstrict] using Source.strict hlenient hstrict
        · simpa [configPaths, hlenient, hstrict] using Source.nowhere hlenient hstrict

/-- The configuration by its source: found or asked for, it is read in the same way. -/
theorem configure_result (o : Options) :
    (configure d stdin o).result =
      (((o.config?.or (configPaths.find? d.isFile)).elim (.ok {}) (readConfig d stdin)).map
        fun c => { c with format := o.format?.getD c.format }).mapError .failed := by
  have hload : (loadConfig d stdin o.config?).result =
      ((o.config?.or (configPaths.find? d.isFile)).elim (.ok {}) (readConfig d stdin)).mapError
        .failed := by
    unfold loadConfig
    cases o.config? with
    | some path => rfl
    | none =>
      show _ = ((configPaths.find? d.isFile).elim (.ok {}) (readConfig d stdin)).mapError Stop.failed
      cases configPaths.find? d.isFile <;> rfl
  unfold configure
  cases h : (o.config?.or (configPaths.find? d.isFile)).elim (.ok {}) (readConfig d stdin) with
  | error f =>
    rw [h] at hload
    rw [Stage.andThen_of_error hload]
    rfl
  | ok c =>
    rw [h] at hload
    rw [Stage.andThen_of_ok hload]
    rfl

/-- Rules that allow only what a function returns, and always something, allow exactly that. -/
theorem iff_of_sound_of_total {ρ τ : Type} {R : ρ → Prop} {x : τ} {g : ρ → τ}
    (hg : Function.Injective g) (sound : ∀ r, R r → x = g r) (total : ∃ r, R r) {r : ρ} :
    R r ↔ x = g r := by
  constructor
  · exact sound r
  · intro h
    obtain ⟨s, hs⟩ := total
    have : s = r := hg ((sound s hs).symm.trans h)
    exact this ▸ hs

/-- Different results stay different as results of a stage. -/
theorem mapError_failed_injective {α : Type} :
    Function.Injective fun r : Except Failure α => r.mapError Stop.failed := by
  intro r s h
  cases r with
  | error f =>
    cases s with
    | error g => exact congrArg Except.error (Stop.failed.inj (Except.error.inj h))
    | ok b => cases h
  | ok a =>
    cases s with
    | error g => cases h
    | ok b => exact congrArg Except.ok (Except.ok.inj h)

/-- The rules leave no configuration undecided. -/
theorem exists_configures (d : Directory) (stdin : ByteArray) (o : Options) :
    ∃ r, Configures d stdin o r := by
  cases hsource : o.config?.or (configPaths.find? d.isFile) with
  | none => exact ⟨_, .default (source_iff.mpr hsource)⟩
  | some path =>
    have source : Source d o.config? (some path) := source_iff.mpr hsource
    cases hread : d.read stdin path with
    | error fault => exact ⟨_, .unread source hread⟩
    | ok text =>
      cases hdecoded : Config.ofText text with
      | error e => exact ⟨_, .invalid source hread hdecoded⟩
      | ok c => exact ⟨_, .decoded source hread hdecoded⟩

/-- The configuration of a run is the one that its rules allow. -/
theorem configures_iff {o : Options} {r : Except Failure Config} :
    Configures d stdin o r ↔ (configure d stdin o).result = r.mapError .failed := by
  apply iff_of_sound_of_total (R := Configures d stdin o) mapError_failed_injective _
    (exists_configures d stdin o)
  intro r h
  rw [configure_result]
  cases h with
  | unread source read =>
    rw [source_iff.mp source, Option.elim_some, readConfig, read]
    rfl
  | invalid source read decoded =>
    rw [source_iff.mp source, Option.elim_some, readConfig, read]
    dsimp only
    rw [decoded]
    rfl
  | decoded source read decoded =>
    rw [source_iff.mp source, Option.elim_some, readConfig, read]
    dsimp only
    rw [decoded]
    rfl
  | default source =>
    rw [source_iff.mp source]
    rfl

/-- The rules leave no input undecided. -/
theorem exists_holds (d : Directory) (stdin : ByteArray) (path : String) :
    ∃ r, Holds d stdin path r := by
  cases hread : readText d stdin path with
  | error fault => exact ⟨_, .unread hread⟩
  | ok text =>
    cases hparsed : Json.read text with
    | error e => exact ⟨_, .invalid hread hparsed⟩
    | ok tree => exact ⟨_, .parsed hread hparsed⟩

/-- The tree of a run is the one that the rules allow for its input. -/
theorem holds_iff {path : String} {r : Except Failure Json} :
    Holds d stdin path r ↔ (readTree d stdin path).result = r.mapError .failed := by
  apply iff_of_sound_of_total (R := Holds d stdin path) mapError_failed_injective _
    (exists_holds d stdin path)
  intro r h
  unfold readTree
  cases h with
  | unread read =>
    rw [read]
    rfl
  | invalid read parsed =>
    rw [read]
    dsimp only
    rw [parsed]
    rfl
  | parsed read parsed =>
    rw [read]
    dsimp only
    rw [parsed]
    rfl

/-- What is printed of a report that is the one rendering or the other, by the format. -/
theorem prints_iff {f : Format} {text : Except Overflow String} {json : String}
    {r : Except Stop String} (report : Except Overflow String)
    (htext : f = .text → report = text) (hjson : f = .json → report = .ok json) :
    Prints f text json r ↔ (report.mapError .overflowed).map (printed f) = r := by
  constructor
  · intro h
    cases h with
    | text text json => rw [htext rfl]; rfl
    | overflow o json => rw [htext rfl]; rfl
    | json text json => rw [hjson rfl]; rfl
  · rintro rfl
    cases f with
    | text =>
      obtain rfl := htext rfl
      cases report with
      | error o => exact .overflow o json
      | ok text => exact .text text json
    | json =>
      obtain rfl := hjson rfl
      exact .json text json

/-- A trace is rendered by the format, and only its text can overflow. -/
theorem prints_trace_iff {c : Config} {ls : List Line} {r : Except Stop String} :
    Prints c.format (Report.Text.trace c ls) (Report.Json.trace c ls).pretty r ↔
      ((Report.trace c ls).mapError .overflowed).map (printed c.format) = r := by
  apply prints_iff (Report.trace c ls)
  · intro h
    rw [Report.trace, h]
  · intro h
    rw [Report.trace, h]

/-- Statistics are rendered by the format and never overflow. -/
theorem prints_stats_iff {f : Format} {s : Stats} {r : Except Stop String} :
    Prints f (.ok (Report.Text.stats s)) (Report.Json.stats s).pretty r ↔
      .ok (printed f (Report.stats f s)) = r := by
  apply prints_iff (.ok (Report.stats f s))
  · rintro rfl
    rfl
  · rintro rfl
    rfl

/-- So are schemas. -/
theorem prints_schema_iff {f : Format} {ks : List Kind} {r : Except Stop String} :
    Prints f (.ok (Report.Text.schema ks)) (Report.Json.schema ks).pretty r ↔
      .ok (printed f (Report.schema f ks)) = r := by
  apply prints_iff (.ok (Report.schema f ks))
  · rintro rfl
    rfl
  · rintro rfl
    rfl

theorem exists_prints (f : Format) (text : Except Overflow String) (json : String) :
    ∃ r, Prints f text json r := by
  cases f with
  | text =>
    cases text with
    | error o => exact ⟨_, .overflow o json⟩
    | ok text => exact ⟨_, .text text json⟩
  | json => exact ⟨_, .json text json⟩

/-- The rules leave no command undecided: there is a tree or not, a fault or not, and a kind with
    the tag or none. -/
theorem exists_reports (d : Directory) (stdin : ByteArray) (c : Config) (command : Command) :
    ∃ r, Reports d stdin c command r := by
  cases command with
  | walk path =>
    obtain ⟨r, input⟩ := exists_holds d stdin path
    cases r with
    | error f => exact ⟨_, .noTree rfl input⟩
    | ok tree =>
      cases htrace : trace tree with
      | error f => exact ⟨_, .untraced input htrace⟩
      | ok ls => exact (exists_prints _ _ _).imp fun _ => .traced input htrace
  | stats path =>
    obtain ⟨r, input⟩ := exists_holds d stdin path
    cases r with
    | error f => exact ⟨_, .noTree rfl input⟩
    | ok tree =>
      cases hstats : stats tree with
      | error f => exact ⟨_, .uncounted input hstats⟩
      | ok s => exact (exists_prints _ _ _).imp fun _ => .counted input hstats
  | schema tag? =>
    cases tag? with
    | none => exact (exists_prints _ _ _).imp fun _ => .allKinds
    | some tag =>
      cases hkind : Kind.ofTag? tag with
      | none =>
        have unknown : ∀ k : Kind, k.tag ≠ tag := by
          rintro k rfl
          rw [Kind.ofTag?_tag] at hkind
          cases hkind
        exact ⟨_, .noKind unknown⟩
      | some k =>
        obtain rfl := Kind.tag_of_ofTag? hkind
        exact (exists_prints _ _ _).imp fun _ => .oneKind

theorem kindsOf_tag (k : Kind) : kindsOf (some k.tag) = .ok [k] := by
  rw [kindsOf, Kind.ofTag, Kind.ofTag?_tag]
  rfl

/-- A tag of no kind is refused with the fault that a walk has for it. -/
theorem kindsOf_of_forall_ne {tag : String} (h : ∀ k : Kind, k.tag ≠ tag) :
    kindsOf (some tag) = .error (.treeFaulty (.unknownTag tag)) := by
  have hnone : Kind.ofTag? tag = none := by
    cases hkind : Kind.ofTag? tag with
    | none => rfl
    | some k => exact absurd (Kind.tag_of_ofTag? hkind) (h k)
  rw [kindsOf, Kind.ofTag, hnone]
  rfl

/-- Without a tree there is no report, on either command that asks for one. -/
theorem report_of_noTree {c : Config} {command : Command} {path : String} {f : Failure}
    (asked : command.input? = some path) (input : Holds d stdin path (.error f)) :
    (report d stdin c command).result = .error (.failed f) := by
  have hread : (readTree d stdin path).result = .error (.failed f) := holds_iff.mp input
  cases command with
  | walk path' =>
    obtain rfl := Option.some.inj asked
    rw [report, Stage.andThen_of_error hread]
  | stats path' =>
    obtain rfl := Option.some.inj asked
    rw [report, Stage.andThen_of_error hread]
  | schema tag? => cases asked

/-- With a tree at hand, what is left of `walk` is to trace it and to render the trace. -/
theorem report_walk {c : Config} {path : String} {tree : Json}
    (input : Holds d stdin path (.ok tree)) :
    (report d stdin c (.walk path)).result =
      ((walked (traceNoting tree)).andThen fun ls => .ofReport (Report.trace c ls)).result := by
  have hread : (readTree d stdin path).result = .ok tree := holds_iff.mp input
  rw [report, Stage.andThen_of_ok hread]

/-- With a tree at hand, what is left of `stats` is to count it and to render the counts. -/
theorem report_stats {c : Config} {path : String} {tree : Json}
    (input : Holds d stdin path (.ok tree)) :
    (report d stdin c (.stats path)).result =
      ((walked (statsNoting tree)).andThen fun s =>
        .ofReport (.ok (Report.stats c.format s))).result := by
  have hread : (readTree d stdin path).result = .ok tree := holds_iff.mp input
  rw [report, Stage.andThen_of_ok hread]

/-- The report of a run is the one that the rules allow for its command. -/
theorem reports_iff {c : Config} {command : Command} {r : Except Stop String} :
    Reports d stdin c command r ↔
      (report d stdin c command).result.map (printed c.format) = r := by
  apply iff_of_sound_of_total (R := Reports d stdin c command) Function.injective_id _
    (exists_reports d stdin c command)
  -- one case for each rule: what the rule asks for is what the stages before it come to
  intro r h
  cases h with
  | noTree asked input =>
    rw [report_of_noTree asked input]
    rfl
  | @untraced path tree f input fault =>
    have hwalked : (walked (traceNoting tree)).result = .error (.failed (.treeFaulty f)) := by
      rw [walked_traceNoting_result, fault]
      rfl
    rw [report_walk input, Stage.andThen_of_error hwalked]
    rfl
  | @traced path tree ls r input traced printed =>
    have hwalked : (walked (traceNoting tree)).result = .ok ls := by
      rw [walked_traceNoting_result, traced]
      rfl
    rw [report_walk input, Stage.andThen_of_ok hwalked]
    exact prints_trace_iff.mp printed
  | @uncounted path tree f input fault =>
    have hwalked : (walked (statsNoting tree)).result = .error (.failed (.treeFaulty f)) := by
      rw [walked_statsNoting_result, fault]
      rfl
    rw [report_stats input, Stage.andThen_of_error hwalked]
    rfl
  | @counted path tree s r input counted printed =>
    have hwalked : (walked (statsNoting tree)).result = .ok s := by
      rw [walked_statsNoting_result, counted]
      rfl
    rw [report_stats input, Stage.andThen_of_ok hwalked]
    exact prints_stats_iff.mp printed
  | noKind unknown =>
    rw [report, kindsOf_of_forall_ne unknown]
    rfl
  | oneKind printed =>
    rw [report, kindsOf_tag]
    exact prints_schema_iff.mp printed
  | allKinds printed => exact prints_schema_iff.mp printed

/-! ## A run follows the rules -/

/-- The rules leave no run undecided. -/
theorem exists_runs (d : Directory) (stdin : ByteArray) (i : Invocation) :
    ∃ r : Ending × String, Runs d stdin i r.1 r.2 := by
  obtain ⟨config, hconfig⟩ := exists_configures d stdin i.options
  cases config with
  | error f => exact ⟨(_, _), .unconfigured hconfig⟩
  | ok c =>
    obtain ⟨r, hreport⟩ := exists_reports d (unconsumed d stdin i.options) c i.command
    cases r with
    | error stop => exact ⟨(_, _), .unreported hconfig hreport⟩
    | ok text => exact ⟨(_, _), .reported hconfig hreport⟩

/-- A run comes to what the rules allow.  The rule that was used says which of the three ways it
    goes. -/
theorem invoke_of_runs {i : Invocation} {e : Ending} {text : String} (h : Runs d stdin i e text) :
    (invoke d stdin i).ending = e ∧ (invoke d stdin i).output = text := by
  cases h with
  | unconfigured config => exact invoke_of_unconfigured (configures_iff.mp config)
  | @unreported c stop config reported =>
    -- printing keeps a stop as it is, so the report stopped in the same way before it was printed
    have hmap := reports_iff.mp reported
    cases hreport : (report d (unconsumed d stdin i.options) c i.command).result with
    | error s =>
      rw [hreport] at hmap
      obtain rfl := Except.error.inj hmap
      exact invoke_of_unreported (configures_iff.mp config) hreport
    | ok text =>
      rw [hreport] at hmap
      cases hmap
  | @reported c text config reported =>
    have hmap := reports_iff.mp reported
    cases hreport : (report d (unconsumed d stdin i.options) c i.command).result with
    | error s =>
      rw [hreport] at hmap
      cases hmap
    | ok plain =>
      rw [hreport] at hmap
      obtain rfl := Except.ok.inj hmap
      exact invoke_of_reported (configures_iff.mp config) hreport

/-- The rules allow one ending and one output, those of the run. -/
theorem runs_iff {i : Invocation} {e : Ending} {text : String} :
    Runs d stdin i e text ↔ (invoke d stdin i).ending = e ∧ (invoke d stdin i).output = text := by
  constructor
  · exact invoke_of_runs
  · rintro ⟨rfl, rfl⟩
    obtain ⟨⟨e, text⟩, h⟩ := exists_runs d stdin i
    obtain ⟨rfl, rfl⟩ := invoke_of_runs h
    exact h

end TypeTree.Cli
