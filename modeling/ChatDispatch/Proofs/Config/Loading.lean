import ChatDispatch.Config.Load
import ChatDispatch.Proofs.Detection.Selection
import ChatDispatch.Proofs.Listening.Schedule

/-!
Which configs are loaded, and what can be relied on then. The defaults are filled in before the
checks, and the settings fall back to the same defaults once more; the two agree, so a config is
judged by the settings that a processor would be run with. What is loaded lets every command be
found by its prefix, and bounds every wait after an error.
-/

namespace ChatDispatch

def IsFitPrefix (text : String) : Prop := text ≠ "" ∧ ' ' ∉ text.toList

structure Settings.IsFit (settings : Settings) : Prop where
  prefixes_ne_nil : settings.prefixes ≠ []
  prefixes : ∀ text ∈ settings.prefixes, IsFitPrefix text
  backoffInitial : 1000 ≤ settings.backoffInitial
  backoffMax : settings.backoffInitial ≤ settings.backoffMax

/-- The prefixes never leave a command with its whole word: a prefix of the list is found in the
word, and is taken out. -/
def Settings.AlwaysCuts (settings : Settings) : Prop :=
  ∀ text, Detection.isPrefixed (settings.prefixes.map String.toList) text = true →
    ∃ q ∈ settings.prefixes, q ≠ "" ∧ ∃ before after,
      Text.cutFirst? q.toList (Detection.commandWord text) = some (before, after) ∧
        Detection.dropOccurrence (settings.prefixes.map String.toList)
          (Detection.commandWord text) = before ++ after

theorem Settings.IsFit.alwaysCuts {settings : Settings} (h : settings.IsFit) :
    settings.AlwaysCuts := by
  intro text hcommand
  obtain ⟨q, hq, hstarts⟩ := Detection.isPrefixed_iff_starts.mp hcommand
  have hoccurs := hstarts.occurs_commandWord (h.prefixes q hq).2
  obtain ⟨_, found, hfirst, front, rest, hcut, hdrop⟩ :=
    Detection.exists_isCut_of_occurs ⟨q, hq, hoccurs⟩
  exact ⟨found, hfirst.mem, hfirst.fit.1, front, rest, Text.cutFirst?_eq_some_iff.mpr hcut, hdrop⟩

namespace Config

/-- The prefixes of the list can be used, and with the defaults in place of missing values the waits
begin with at least a second and do not begin beyond their limit. -/
structure IsSound (config : Config) : Prop where
  prefixes : ∀ text ∈ config.commands.prefixes, IsFitPrefix text
  backoffInitial : 1 ≤ config.poll.backoffInitial.getD defaultBackoffInitial
  backoffMax : config.poll.backoffInitial.getD defaultBackoffInitial ≤
    config.poll.backoffMax.getD defaultBackoffMax

variable {config loaded : Config} {environment : Environment} {file : FileState}

/-- The settings do not depend on which of the two fills the defaults in. -/
theorem settings_withDefaults (config : Config) :
    config.withDefaults.settings = config.settings := by
  obtain ⟨⟨prefixes, mode⟩, source, ⟨initial, greatest⟩, logging⟩ := config
  cases prefixes <;> cases initial <;> cases greatest <;>
    simp [settings, withDefaults, defaultPrefix, defaultBackoffInitial, defaultBackoffMax]

section Report

theorem prefixErrors_eq_nil_iff {index : Nat} {text : String} :
    prefixErrors index text = [] ↔ IsFitPrefix text := by
  unfold prefixErrors IsFitPrefix
  by_cases hempty : text = ""
  · simp [hempty]
  · by_cases hspace : ' ' ∈ text.toList
    · simp [hempty, hspace]
    · simp [hempty, hspace]

theorem prefixErrorsFrom_eq_nil_iff {index : Nat} {prefixes : List String} :
    prefixErrorsFrom index prefixes = [] ↔ ∀ text ∈ prefixes, IsFitPrefix text := by
  induction prefixes generalizing index with
  | nil => simp [prefixErrorsFrom]
  | cons text rest ih =>
    rw [prefixErrorsFrom, List.append_eq_nil_iff, prefixErrors_eq_nil_iff, ih,
      List.forall_mem_cons]

theorem isFitPrefix_default : IsFitPrefix defaultPrefix := by
  unfold IsFitPrefix
  decide

theorem commandErrors_withDefaults_eq_nil_iff :
    commandErrors config.withDefaults.commands = [] ↔
      ∀ text ∈ config.commands.prefixes, IsFitPrefix text := by
  unfold commandErrors
  cases hprefixes : config.commands.prefixes with
  | nil => simp [withDefaults, hprefixes, prefixErrorsFrom_eq_nil_iff, isFitPrefix_default]
  | cons first rest => simp [withDefaults, hprefixes, prefixErrorsFrom_eq_nil_iff]

theorem pollErrors_withDefaults_eq_nil_iff :
    pollErrors config.withDefaults.poll = [] ↔
      1 ≤ config.poll.backoffInitial.getD defaultBackoffInitial ∧
        config.poll.backoffInitial.getD defaultBackoffInitial ≤
          config.poll.backoffMax.getD defaultBackoffMax := by
  simp only [pollErrors, withDefaults, List.append_eq_nil_iff, ite_eq_right_iff, Option.some.injEq,
    List.cons_ne_nil, imp_false, Nat.not_lt, Nat.one_le_iff_ne_zero]

/-- A config passes the checks with its defaults exactly if it is sound. -/
theorem errors_withDefaults_eq_nil_iff :
    config.withDefaults.report.errors = [] ↔ config.IsSound := by
  simp only [report, List.append_eq_nil_iff, commandErrors_withDefaults_eq_nil_iff,
    pollErrors_withDefaults_eq_nil_iff]
  constructor
  · rintro ⟨hprefixes, hinitial, hgreatest⟩
    exact ⟨hprefixes, hinitial, hgreatest⟩
  · rintro ⟨hprefixes, hinitial, hgreatest⟩
    exact ⟨hprefixes, hinitial, hgreatest⟩

end Report

theorem prepare_eq_ok_iff :
    prepare config = .ok loaded ↔ config.IsSound ∧ loaded = config.withDefaults := by
  rw [← errors_withDefaults_eq_nil_iff]
  unfold prepare
  cases herrors : config.withDefaults.report.errors with
  | nil => simp [herrors, eq_comm]
  | cons first rest => simp [herrors]

theorem backoffInitial_settings (config : Config) :
    config.settings.backoffInitial =
      config.poll.backoffInitial.getD defaultBackoffInitial * 1000 := by
  cases hinitial : config.poll.backoffInitial <;> simp [settings, hinitial, defaultBackoffInitial]

theorem backoffMax_settings (config : Config) :
    config.settings.backoffMax = config.poll.backoffMax.getD defaultBackoffMax * 1000 := by
  cases hgreatest : config.poll.backoffMax <;> simp [settings, hgreatest, defaultBackoffMax]

/-- A sound config, with the defaults or without them, gives settings that can be relied on. -/
theorem IsSound.isFit (h : config.IsSound) : config.settings.IsFit := by
  obtain ⟨hprefixes, hinitial, hgreatest⟩ := h
  refine ⟨?_, ?_, ?_, ?_⟩
  · cases hlist : config.commands.prefixes <;> simp [settings, hlist]
  · cases hlist : config.commands.prefixes with
    | nil => simpa [settings, hlist, defaultPrefix] using isFitPrefix_default
    | cons first rest =>
      rw [hlist] at hprefixes
      simpa [settings, hlist] using hprefixes
  · rw [backoffInitial_settings]
    omega
  · rw [backoffInitial_settings, backoffMax_settings]
    exact Nat.mul_le_mul_right 1000 hgreatest

section Load

theorem ofReferringTree_eq_ok_iff {tree : Json} :
    ofReferringTree environment tree = .ok config ↔
      ∃ resolved, resolve environment tree = .ok resolved ∧ ofTree resolved = .ok config := by
  unfold ofReferringTree
  cases resolve environment tree with
  | error missing =>
    refine iff_of_false (fun h => by cases h) ?_
    rintro ⟨resolved, hresolve, -⟩
    cases hresolve
  | ok resolved =>
    have hread : (ofTree resolved).mapError LoadFault.wrongStructure = .ok config ↔
        ofTree resolved = .ok config := by
      cases ofTree resolved with
      | error mismatch => exact iff_of_false (fun h => by cases h) (fun h => by cases h)
      | ok other => constructor <;> intro h <;> cases h <;> rfl
    refine hread.trans ⟨fun h => ⟨resolved, rfl, h⟩, ?_⟩
    rintro ⟨_, hresolve, hconfig⟩
    cases hresolve
    exact hconfig

theorem load_eq_of_tree {tree : Json} (h : readTree file = .ok (some tree)) :
    load environment file = ofReferringTree environment tree >>= prepare := by
  rw [load, h]
  rfl

theorem load_of_tree {tree : Json} (h : readTree file = .ok (some tree)) :
    load environment file = .ok loaded ↔
      ∃ resolved config, resolve environment tree = .ok resolved ∧
        ofTree resolved = .ok config ∧ prepare config = .ok loaded := by
  rw [load_eq_of_tree h]
  constructor
  · intro hprepare
    cases hread : ofReferringTree environment tree with
    | error fault =>
      rw [hread] at hprepare
      cases hprepare
    | ok config =>
      rw [hread] at hprepare
      obtain ⟨resolved, hresolve, hconfig⟩ := ofReferringTree_eq_ok_iff.mp hread
      exact ⟨resolved, config, hresolve, hconfig, hprepare⟩
  · rintro ⟨resolved, config, hresolve, hconfig, hprepare⟩
    rw [ofReferringTree_eq_ok_iff.mpr ⟨resolved, hresolve, hconfig⟩]
    exact hprepare

/-- Whatever is loaded is a sound config with its defaults. -/
theorem exists_isSound_of_load (h : load environment file = .ok loaded) :
    ∃ config : Config, config.IsSound ∧ loaded = config.withDefaults := by
  cases hread : readTree file with
  | error fault =>
    rw [load, hread] at h
    cases h
  | ok tree? =>
    cases tree? with
    | none =>
      have hprepare : prepare {} = .ok loaded := by
        rw [load, hread] at h
        exact h
      exact ⟨_, prepare_eq_ok_iff.mp hprepare⟩
    | some tree =>
      obtain ⟨resolved, config, -, -, hprepare⟩ := (load_of_tree hread).mp h
      exact ⟨config, prepare_eq_ok_iff.mp hprepare⟩

end Load

/-- A file with a value tree is loaded exactly if its references can be replaced, a config can be
read from it, and that config is sound; it is loaded with its defaults, and its settings are those
that it has without them. With the settings of whatever is loaded, every command is found by a
prefix that is taken out of its word, and no loop waits longer after an error than the limit. -/
theorem load_settled_by_soundness (environment : Environment) (file : FileState) :
    (∀ tree, readTree file = .ok (some tree) → ∀ loaded,
      load environment file = .ok loaded ↔
        ∃ resolved config, resolve environment tree = .ok resolved ∧
          ofTree resolved = .ok config ∧ config.IsSound ∧ loaded = config.withDefaults ∧
          loaded.settings = config.settings) ∧
    ∀ loaded, load environment file = .ok loaded →
      loaded.settings.IsFit ∧ loaded.settings.AlwaysCuts ∧
      ∀ (depth : Nat) (favour : Favour) (start : Listening.Start) (source : Source)
        (p : Processor), p.settings = loaded.settings →
        ∀ wait ∈ retryWaits (Listening.listen depth favour start source p).journal,
          wait ≤ loaded.settings.backoffMax := by
  constructor
  · intro tree htree loaded
    rw [load_of_tree htree]
    constructor
    · rintro ⟨resolved, config, hresolve, hconfig, hprepare⟩
      obtain ⟨hsound, rfl⟩ := prepare_eq_ok_iff.mp hprepare
      exact ⟨resolved, config, hresolve, hconfig, hsound, rfl, settings_withDefaults config⟩
    · rintro ⟨resolved, config, hresolve, hconfig, hsound, hloaded, -⟩
      exact ⟨resolved, config, hresolve, hconfig, prepare_eq_ok_iff.mpr ⟨hsound, hloaded⟩⟩
  · intro loaded hload
    obtain ⟨config, hsound, rfl⟩ := exists_isSound_of_load hload
    have hfit : config.withDefaults.settings.IsFit := by
      rw [settings_withDefaults]
      exact hsound.isFit
    refine ⟨hfit, hfit.alwaysCuts, ?_⟩
    intro depth favour start source p hp wait hwait
    rw [← hp] at hfit ⊢
    exact Listening.retryWaits_listen_le depth favour start source p hfit.backoffMax wait hwait

def hostFile : FileState :=
  .text "commands:\n  prefixes: ['!', '$\x7bSIGN\x7d']\npoll:\n  backoffMaxSecs: 30\n"

/-- Where the sign is set the file is loaded, with the other wait from the defaults. -/
theorem load_hostFile :
    ∃ loaded, load (.ofEntries [("SIGN", "bot,")]) hostFile = .ok loaded ∧
      loaded.settings = { prefixes := ["!", "bot,"], backoffMax := 30000 } ∧
      loaded.settings.IsFit ∧ loaded.settings.AlwaysCuts := by
  have hsettings : (load (.ofEntries [("SIGN", "bot,")]) hostFile).toOption.map settings =
      some { prefixes := ["!", "bot,"], backoffMax := 30000 } := by decide +kernel
  cases hload : load (.ofEntries [("SIGN", "bot,")]) hostFile with
  | error fault => simp [hload, Except.toOption] at hsettings
  | ok loaded =>
    obtain ⟨hfit, hcuts, -⟩ :=
      (load_settled_by_soundness (.ofEntries [("SIGN", "bot,")]) hostFile).2 loaded hload
    refine ⟨loaded, rfl, ?_, hfit, hcuts⟩
    simpa [hload, Except.toOption] using hsettings

end Config

end ChatDispatch
