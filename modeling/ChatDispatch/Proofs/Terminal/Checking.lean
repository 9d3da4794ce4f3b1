import ChatDispatch.Proofs.Config.Loading
import ChatDispatch.Proofs.Config.References
import ChatDispatch.Terminal.Perform

/-!
Checking a config file against loading it. Both read the file on their own, and do not report in the
same way; but a check succeeds just where a load does, fails for the fault that the load fails for,
and shows the config that the load gives, with its secrets hidden. The variables that it lists as
missing are those without which no load of the file succeeds.
-/

namespace ChatDispatch

namespace Config

variable {environment : Environment} {file : FileState} {tree : Json} {name : String}

/-- The references of a tree cannot be replaced wherever this variable is missing. -/
def IsNeeded (tree : Json) (name : String) : Prop :=
  ∀ environment : Environment, ¬ environment.IsSet name →
    ∃ missing, resolve environment tree = .error missing

/-- The references cannot be replaced where one of the variables that are referred to is missing. -/
theorem exists_missing_iff :
    (∃ missing, resolve environment tree = .error missing) ↔
      ∃ name ∈ referencedVariables tree, ¬ environment.IsSet name := by
  simp only [mem_referencedVariables_iff]
  constructor
  · rintro ⟨missing, hmissing⟩
    rw [resolve_eq, verdict_eq_error_iff] at hmissing
    obtain ⟨before, after, hsplit, hunset, -⟩ := hmissing
    exact ⟨missing.name, ⟨missing, by simp [hsplit], rfl⟩, hunset⟩
  · rintro ⟨_, ⟨reference, hmem, rfl⟩, hunset⟩
    cases hresolve : resolve environment tree with
    | error missing => exact ⟨missing, rfl⟩
    | ok resolved =>
      rw [resolve_eq, verdict_eq_ok_iff] at hresolve
      exact absurd (hresolve.1 reference hmem) hunset

/-- A tree needs the variables that it refers to, and no others. -/
theorem isNeeded_iff : IsNeeded tree name ↔ name ∈ referencedVariables tree := by
  constructor
  · intro hneeded
    -- Where all other variables are set, only this one can be the one that is missing.
    let others : Environment := fun other => if other = name then none else some "set"
    have hunset : ¬ others.IsSet name := by
      rintro ⟨value, hvalue, -⟩
      simp [others] at hvalue
    obtain ⟨missing, hmem, hmissing⟩ := exists_missing_iff.mp (hneeded others hunset)
    by_cases hname : missing = name
    · rwa [← hname]
    · exact absurd ⟨"set", if_neg hname, by decide⟩ hmissing
  · intro hmem environment hunset
    exact exists_missing_iff.mpr ⟨name, hmem, hunset⟩

theorem prepare_ne_missingVariable {config : Config} {missing : MissingVariable} :
    prepare config ≠ .error (.missingVariable missing) := by
  unfold prepare
  cases hremarks : config.withDefaults.report.errors with
  | nil => simp [hremarks]
  | cons first rest => simp [hremarks]

/-- The load of a file with a tree fails for want of a variable where the references of the tree
cannot be replaced. -/
theorem load_missing_iff (h : readTree file = .ok (some tree)) {missing : MissingVariable} :
    load environment file = .error (.missingVariable missing) ↔
      resolve environment tree = .error missing := by
  rw [load_eq_of_tree h, ofReferringTree]
  cases resolve environment tree with
  | error other =>
    change Except.error (LoadFault.missingVariable other) = _ ↔ _
    simp
  | ok resolved =>
    refine iff_of_false (fun hfailed => ?_) nofun
    change ((ofTree resolved).mapError LoadFault.wrongStructure >>= prepare) = _ at hfailed
    cases hread : ofTree resolved with
    | error mismatch =>
      rw [hread] at hfailed
      cases hfailed
    | ok config =>
      rw [hread] at hfailed
      exact prepare_ne_missingVariable hfailed

end Config

namespace Terminal

open Config

variable {environment : Environment} {path : String} {file : FileState} {tree : Json}
  {name : String}

def checkTitle (environment : Environment) (path : String) : String :=
  paint environment .bold ("Checking " ++ path)

def setLine (environment : Environment) (name : String) : String :=
  "  " ++ paint environment .green "set    " ++ " " ++ name

def missingLine (environment : Environment) (name : String) : String :=
  "  " ++ paint environment .red "missing" ++ " " ++ name

def headLines (environment : Environment) (path : String) (tree : Json) : List String :=
  checkTitle environment path :: variableLines environment (referencedVariables tree)

/-- The lines that follow if a config can be read from the tree: the remarks on it, and the config
itself with its secrets hidden. -/
def configLines (environment : Environment) (config : Config) : List String :=
  reportLines environment config.report ++ [(Redaction.redactTree config.tree).pretty]

/-- What a check reports as its failure where the load has this fault. -/
def checkReport (path : String) : LoadFault → Cause
  | .invalid _ rest => ⟨toString (rest.length + 1) ++ " config error(s)", []⟩
  | fault => checkFailure path fault

section Lines

theorem missingLine_inj {other : String} :
    missingLine environment name = missingLine environment other ↔ name = other := by
  simp only [missingLine, ← String.toList_inj, String.toList_append, List.append_cancel_left_eq]

theorem setLine_ne_missingLine {other : String} :
    setLine environment name ≠ missingLine environment other := by
  have hgreen : Style.green.code.toList = ['\x1b', '[', '3', '2', 'm'] := rfl
  have hred : Style.red.code.toList = ['\x1b', '[', '3', '1', 'm'] := rfl
  rw [setLine, missingLine, paint, paint, ne_eq, ← String.toList_inj]
  split
  · simp [hgreen, hred]
  · simp

/-- A name is listed as missing if it is one of the names and is not set. -/
theorem missingLine_mem_iff {names : List String} :
    missingLine environment name ∈ variableLines environment names ↔
      name ∈ names ∧ ¬ environment.IsSet name := by
  have hheader : missingLine environment name ≠ "Environment variables:" := by
    rw [missingLine, ne_eq, ← String.toList_inj]
    simp
  have hline : ∀ other, missingLine environment name =
      "  " ++ (if (environment.value? other).isSome then paint environment .green "set    "
        else paint environment .red "missing") ++ " " ++ other ↔
      other = name ∧ ¬ environment.IsSet other := by
    intro other
    rw [Environment.isSet_iff]
    split
    next hset => exact iff_of_false setLine_ne_missingLine.symm fun h => h.2 hset
    next hunset =>
      refine missingLine_inj.trans ⟨fun h => ⟨h.symm, hunset⟩, fun h => h.1.symm⟩
  unfold variableLines
  split
  next hempty => simp [List.isEmpty_iff.mp hempty]
  next =>
    rw [List.mem_cons, or_iff_right hheader, List.mem_map]
    simp only [eq_comm (b := missingLine environment name), hline]
    constructor
    · rintro ⟨other, hmem, rfl, hunset⟩
      exact ⟨hmem, hunset⟩
    · rintro ⟨hmem, hunset⟩
      exact ⟨name, hmem, rfl, hunset⟩

/-- Nothing else at the beginning of a check is such a line. -/
theorem missingLine_mem_headLines_iff :
    missingLine environment name ∈ headLines environment path tree ↔
      ¬ environment.IsSet name ∧ IsNeeded tree name := by
  have htitle : missingLine environment name ≠ checkTitle environment path := by
    have hbold : Style.bold.code.toList = ['\x1b', '[', '1', 'm'] := rfl
    rw [missingLine, checkTitle, paint, paint, ne_eq, ← String.toList_inj]
    split
    · simp [hbold]
    · simp
  rw [headLines, List.mem_cons, or_iff_right htitle, missingLine_mem_iff, isNeeded_iff, and_comm]

end Lines

/-- A file that holds no tree, because it cannot be read, fails both the load and the check. -/
theorem check_of_unread {fault : LoadFault} (h : readTree file = .error fault) :
    load environment file = .error fault ∧
      check environment path file =
        .failed (lines [checkTitle environment path]) (checkReport path fault) := by
  have hreport : checkReport path fault = checkFailure path fault := by
    cases fault with
    | invalid first rest =>
      unfold readTree at h
      split at h
      · cases h
      · cases h
      · split at h <;> cases h
    | _ => rfl
  constructor
  · rw [load, h]
    rfl
  · rw [check, h, hreport]
    rfl

/-- Without a file the defaults are loaded, and a check says no more than that. -/
theorem check_of_none (h : readTree file = .ok none) :
    load environment file = .ok ({} : Config).withDefaults ∧
      (check environment path file).code = 0 := by
  have hsound : ({} : Config).IsSound := ⟨by simp, by decide, by decide⟩
  constructor
  · rw [load, h]
    exact prepare_eq_ok_iff.mpr ⟨hsound, rfl⟩
  · rw [check, h]

theorem ne_invalid_of_ofReferringTree {first : Remark} {rest : List Remark} :
    ofReferringTree environment tree ≠ .error (.invalid first rest) := by
  unfold ofReferringTree
  cases resolve environment tree with
  | error missing => exact nofun
  | ok resolved =>
    change (ofTree resolved).mapError _ ≠ _
    cases ofTree resolved with
    | error mismatch => exact nofun
    | ok config => exact nofun

/-- A file with a tree: the check shows the config that is loaded, or fails for the fault that the
load fails for; in both cases it has listed the variables before. -/
theorem check_of_tree (environment : Environment) (path : String)
    (h : readTree file = .ok (some tree)) :
    (∃ loaded, load environment file = .ok loaded ∧
      check environment path file = ⟨0, lines (headLines environment path tree ++
        configLines environment loaded ++ [paint environment .green "Config OK"]), ""⟩) ∨
    ∃ fault shown, load environment file = .error fault ∧
      check environment path file =
        .failed (lines (headLines environment path tree ++ shown)) (checkReport path fault) := by
  have hcheck : check environment path file =
      checkTree environment path [checkTitle environment path] tree := by
    rw [check, h]
    rfl
  rw [load_eq_of_tree h, hcheck, checkTree]
  cases hread : ofReferringTree environment tree with
  | error fault =>
    have hreport : checkReport path fault = checkFailure path fault := by
      cases fault with
      | invalid first rest => exact absurd hread ne_invalid_of_ofReferringTree
      | _ => rfl
    refine .inr ⟨fault, [], rfl, ?_⟩
    rw [hreport, List.append_nil]
    rfl
  | ok config =>
    change (∃ loaded, prepare config = .ok loaded ∧ _) ∨ ∃ fault shown,
      prepare config = .error fault ∧ _
    unfold prepare
    cases herrors : config.withDefaults.report.errors with
    | nil =>
      refine .inl ⟨config.withDefaults, by simp [herrors], ?_⟩
      simp [Report.isValid, herrors, headLines, configLines, shownConfig, checkTitle]
    | cons first rest =>
      refine .inr ⟨.invalid first rest, configLines environment config.withDefaults,
        by simp [herrors], ?_⟩
      simp [Report.isValid, herrors, headLines, configLines, shownConfig, checkTitle, checkReport]

/-- A check succeeds with a load, or fails for the fault of the load. -/
theorem check_cases (environment : Environment) (path : String) (file : FileState) :
    (∃ loaded, load environment file = .ok loaded ∧ (check environment path file).code = 0) ∨
    ∃ fault output, load environment file = .error fault ∧
      check environment path file = .failed output (checkReport path fault) := by
  cases hread : readTree file with
  | error fault =>
    obtain ⟨hload, hcheck⟩ := @check_of_unread environment path file fault hread
    exact .inr ⟨fault, _, hload, hcheck⟩
  | ok tree? =>
    cases tree? with
    | none =>
      obtain ⟨hload, hcheck⟩ := @check_of_none environment path file hread
      exact .inl ⟨_, hload, hcheck⟩
    | some tree =>
      rcases check_of_tree environment path hread with
        ⟨loaded, hload, hcheck⟩ | ⟨fault, shown, hload, hcheck⟩
      · exact .inl ⟨loaded, hload, by rw [hcheck]⟩
      · exact .inr ⟨fault, _, hload, hcheck⟩

/-- A check and a load of the same file in the same environment. One succeeds where the other does.
Where there is a file, the check then shows the loaded config with its secrets hidden; where the
load fails, the check reports the same fault. What it lists as missing of a tree are the variables
that are not set and without which the references cannot be replaced, so that no load succeeds; and
the load fails for want of a variable just where one is listed. -/
theorem check_agrees_with_load (environment : Environment) (path : String) (file : FileState) :
    ((check environment path file).code = 0 ↔ ∃ loaded, load environment file = .ok loaded) ∧
    (∀ tree loaded, readTree file = .ok (some tree) → load environment file = .ok loaded →
      check environment path file = ⟨0, lines (headLines environment path tree ++
        configLines environment loaded ++ [paint environment .green "Config OK"]), ""⟩) ∧
    (∀ fault, load environment file = .error fault →
      (check environment path file).errors = failureText (checkReport path fault)) ∧
    ∀ tree, readTree file = .ok (some tree) →
      (∃ shown, (check environment path file).output =
        lines (headLines environment path tree ++ shown)) ∧
      (∀ name, missingLine environment name ∈ headLines environment path tree ↔
        ¬ environment.IsSet name ∧ IsNeeded tree name) ∧
      (∀ name, IsNeeded tree name → ∀ other : Environment, ¬ other.IsSet name →
        ∃ missing, load other file = .error (.missingVariable missing)) ∧
      ((∃ missing, load environment file = .error (.missingVariable missing)) ↔
        ∃ name, missingLine environment name ∈ headLines environment path tree) := by
  refine ⟨?_, ?_, ?_, ?_⟩
  · rcases check_cases environment path file with
      ⟨loaded, hload, hcode⟩ | ⟨fault, output, hload, hcheck⟩
    · exact iff_of_true hcode ⟨loaded, hload⟩
    · rw [hload, hcheck]
      exact iff_of_false nofun (by rintro ⟨loaded, h⟩; cases h)
  · intro tree loaded hread hload
    rcases check_of_tree environment path hread with
      ⟨other, hother, hcheck⟩ | ⟨fault, shown, hfailed, hcheck⟩
    · obtain rfl : other = loaded := Except.ok.inj (hother.symm.trans hload)
      exact hcheck
    · cases hload.symm.trans hfailed
  · intro fault hload
    rcases check_cases environment path file with
      ⟨loaded, hother, -⟩ | ⟨other, output, hother, hcheck⟩
    · cases hload.symm.trans hother
    · obtain rfl : other = fault := Except.error.inj (hother.symm.trans hload)
      rw [hcheck]
      rfl
  · intro tree hread
    refine ⟨?_, fun name => missingLine_mem_headLines_iff, ?_, ?_⟩
    · rcases check_of_tree environment path hread with
        ⟨loaded, -, hcheck⟩ | ⟨fault, shown, -, hcheck⟩
      · exact ⟨_, by rw [hcheck, List.append_assoc]⟩
      · exact ⟨shown, by rw [hcheck]; rfl⟩
    · intro name hneeded other hunset
      obtain ⟨missing, hmissing⟩ := hneeded other hunset
      exact ⟨missing, (load_missing_iff hread).mpr hmissing⟩
    · simp only [load_missing_iff hread, exists_missing_iff, missingLine_mem_headLines_iff,
        isNeeded_iff, and_comm]

def tokenFile : FileState :=
  .text "source:\n  groupId: 7\n  accessToken: '$\x7bTOKEN\x7d'\n"

def tokenEnvironment (token : String) : Environment := .ofEntries [("TOKEN", token)]

/-- With a token the file is loaded, and a check shows a hint of it; with an empty one the token is
listed as missing, and the check fails. -/
theorem check_tokenFile :
    ∃ tree, readTree tokenFile = .ok (some tree) ∧
      (∃ loaded, load (tokenEnvironment "vk1.a.secret") tokenFile = .ok loaded ∧
        loaded.source = ⟨7, some "vk1.a.secret", none⟩ ∧
        check (tokenEnvironment "vk1.a.secret") "bot.yaml" tokenFile =
          ⟨0, lines (headLines (tokenEnvironment "vk1.a.secret") "bot.yaml" tree ++
            configLines (tokenEnvironment "vk1.a.secret") loaded ++ ["Config OK"]), ""⟩ ∧
        ((Redaction.redactTree loaded.tree).field? "source").map Json.compact =
          some "\x7b\"accessToken\":\"vk1.***\",\"groupId\":7\x7d") ∧
      missingLine (tokenEnvironment "") "TOKEN" ∈
        headLines (tokenEnvironment "") "bot.yaml" tree ∧
      (check (tokenEnvironment "") "bot.yaml" tokenFile).code ≠ 0 := by
  have hnames : (readTree tokenFile).toOption.join.map referencedVariables = some ["TOKEN"] := by
    decide +kernel
  have hloaded : (load (tokenEnvironment "vk1.a.secret") tokenFile).toOption.map
      (fun loaded => (loaded.source,
        ((Redaction.redactTree loaded.tree).field? "source").map Json.compact)) =
      some (⟨7, some "vk1.a.secret", none⟩,
        some "\x7b\"accessToken\":\"vk1.***\",\"groupId\":7\x7d") := by decide +kernel
  obtain ⟨tree, htree, hreferenced⟩ := Option.map_eq_some_iff.mp hnames
  obtain ⟨loaded, hload, hshown⟩ := Option.map_eq_some_iff.mp hloaded
  have hread : readTree tokenFile = .ok (some tree) := by
    cases hfile : readTree tokenFile with
    | error fault => simp [hfile, Except.toOption] at htree
    | ok tree? =>
      rw [hfile] at htree
      exact congrArg Except.ok (Option.some.inj (Option.join_eq_some_iff.mp htree))
  have hfile : load (tokenEnvironment "vk1.a.secret") tokenFile = .ok loaded := by
    cases hresult : load (tokenEnvironment "vk1.a.secret") tokenFile with
    | error fault => simp [hresult, Except.toOption] at hload
    | ok other =>
      rw [hresult] at hload
      exact congrArg Except.ok (Option.some.inj hload)
  have hunset : ¬ (tokenEnvironment "").IsSet "TOKEN" := by
    rintro ⟨value, hvalue, hne⟩
    exact hne (Option.some.inj hvalue).symm
  have hneeded : IsNeeded tree "TOKEN" := by
    rw [isNeeded_iff, hreferenced]
    exact List.mem_singleton_self _
  obtain ⟨-, hshows, -, -⟩ :=
    check_agrees_with_load (tokenEnvironment "vk1.a.secret") "bot.yaml" tokenFile
  obtain ⟨hcode, -, -, hlists⟩ := check_agrees_with_load (tokenEnvironment "") "bot.yaml" tokenFile
  obtain ⟨-, hlisted, hfails, -⟩ := hlists tree hread
  refine ⟨tree, hread, ⟨loaded, hfile, (Prod.mk.inj hshown).1, hshows tree loaded hread hfile,
    (Prod.mk.inj hshown).2⟩, (hlisted "TOKEN").mpr ⟨hunset, hneeded⟩, ?_⟩
  intro hzero
  obtain ⟨other, hother⟩ := hcode.mp hzero
  obtain ⟨missing, hmissing⟩ := hfails "TOKEN" hneeded _ hunset
  cases hmissing.symm.trans hother

end Terminal

end ChatDispatch
