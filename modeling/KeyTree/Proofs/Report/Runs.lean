import KeyTree.Proofs.Report.Settings
import KeyTree.Proofs.Tree.Derivation
import KeyTree.Report.Basic
/-!
What a run of the report leaves behind, stage by stage.

The engine is started, the settings are read and a seed is chosen; the rest depends on the path, the
message and the seed only (`bodyOf`).  A stage that fails ends the run with its error, and the lines
printed before are left (`Outcome.stage`, `outcome_eq`).
-/

set_option autoImplicit false
set_option relaxedAutoImplicit false

namespace KeyTree.Report

namespace Outcome

def ofResult : Except ReportError Unit × List String → Outcome
  | (.ok (), lines) => ⟨lines, none⟩
  | (.error fault, lines) => ⟨lines, some fault⟩

def after (before : List String) (o : Outcome) : Outcome :=
  ⟨before ++ o.lines, o.error⟩

private theorem after_mk (before lines : List String) (error : Option ReportError) :
    after before ⟨lines, error⟩ = ⟨before ++ lines, error⟩ := rfl

private theorem after_nil (o : Outcome) : o.after [] = o := by
  cases o
  rfl

theorem lines_after_singleton (line : String) (o : Outcome) :
    (o.after [line]).lines = line :: o.lines := rfl

theorem error_after (before : List String) (o : Outcome) : (o.after before).error = o.error := rfl

theorem status_after (before : List String) (o : Outcome) : (o.after before).status = o.status :=
  rfl

theorem errorLine?_after (before : List String) (o : Outcome) :
    (o.after before).errorLine? = o.errorLine? := rfl

/-- What is left behind by a stage and what follows it, where some lines have been printed when the
stage is reached. -/
def stage {ε α : Type} (wrap : ε → ReportError) (before : List String) (result : Except ε α)
    (next : α → Outcome) : Outcome :=
  match result with
  | .error fault => ⟨before, some (wrap fault)⟩
  | .ok a => next a

variable {ε α β : Type} (wrap : ε → ReportError) (before : List String)

theorem stage_ok (a : α) (next : α → Outcome) : stage wrap before (.ok a) next = next a := rfl

private theorem stage_pure (a : α) (next : α → Outcome) : stage wrap before (pure a) next = next a := rfl

private theorem stage_bind (result : Except ε α) (f : α → Except ε β) (next : β → Outcome) :
    stage wrap before (result >>= f) next =
      stage wrap before result fun a => stage wrap before (f a) next := by
  cases result <;> rfl

private theorem after_stage (lines : List String) (result : Except ε α) (next : α → Outcome) :
    (stage wrap before result next).after lines =
      stage wrap (lines ++ before) result fun a => (next a).after lines := by
  cases result <;> rfl

theorem mem_lines_stage {line : String} {result : Except ε α} {next : α → Outcome}
    (member : line ∈ (stage wrap before result next).lines) :
    line ∈ before ∨ ∃ a, result = .ok a ∧ line ∈ (next a).lines := by
  cases result with
  | error fault => exact .inl member
  | ok a => exact .inr ⟨a, rfl, member⟩

theorem exists_of_error_stage {result : Except ε α} {next : α → Outcome}
    (clean : (stage wrap before result next).error = none) :
    ∃ a, result = .ok a ∧ (next a).error = none := by
  cases result with
  | error fault => cases clean
  | ok a => exact ⟨a, rfl, clean⟩

private theorem ofResult_bind (result : Except ε α) (next : α → Printing Unit) :
    ofResult ((Update.ofExcept (result.mapError wrap) >>= next).apply before) =
      stage wrap before result fun a => ofResult ((next a).apply before) := by
  rw [Update.apply_bind]
  cases result <;> rfl

private theorem ofResult_modify_bind (f : List String → List String) (next : Unit → Printing Unit) :
    ofResult ((modify f >>= next).apply before) = ofResult ((next ()).apply (f before)) := by
  rw [Update.apply_bind]
  rfl

private theorem ofResult_modify (f : List String → List String) :
    ofResult ((modify f : Printing Unit).apply before) = ⟨f before, none⟩ := rfl

private theorem ofResult_pure : ofResult ((pure () : Printing Unit).apply before) = ⟨before, none⟩ := rfl

end Outcome

open Outcome

/-- The nodes that a report is about: the leaf, and the public views of the root and the leaf. -/
structure Nodes where
  leaf : PrivateNode
  rootPublic : PublicNode
  leafPublic : PublicNode

def nodesOf (path : Path) (seed : Bytes) : Except TreeError Nodes := do
  let root ← PrivateNode.ofSeed seed
  let leaf ← root.derivePath path
  let leafPublic ← leaf.neuter
  let rootPublic ← root.neuter
  return ⟨leaf, rootPublic, leafPublic⟩

def messageLines (leaf : PrivateNode) : Option String → Except TreeError (List String)
  | none => .ok []
  | some message => signatureLines leaf message

def Nodes.lines (nodes : Nodes) (path : Path) : List String :=
  treeLines nodes.rootPublic nodes.leafPublic path

def bodyOf (path : Path) (message : Option String) (seed : Bytes) : Outcome :=
  stage .key [] (nodesOf path seed) fun nodes =>
    stage .key (nodes.lines path) (messageLines nodes.leaf message) fun lines =>
      ⟨nodes.lines path ++ lines, none⟩

private theorem ofResult_linesOf (settings : Settings) (seed : Bytes) (before : List String) :
    ofResult ((linesOf settings seed).apply before) =
      (bodyOf settings.path settings.message seed).after before := by
  obtain ⟨-, path, message⟩ := settings
  simp only [linesOf, bodyOf, nodesOf, ofResult_bind, stage_bind, after_stage, stage_pure,
    ofResult_modify_bind, Nodes.lines, after_mk, List.append_nil]
  cases message with
  | none => simp only [ofResult_pure, messageLines, stage_ok, List.append_nil]
  | some message => simp only [messageLines, ofResult_bind, ofResult_modify, List.append_assoc]

/-- What remains of a supply of random bytes when the engine is started, unless it fails to. -/
def started (env : Environment) (source : Entropy) : Except EngineError Entropy :=
  ((Engine.startFrom env source).apply Engine.idle).1

def reportOf (settings : Settings) (rest : Entropy) : Outcome :=
  match settings.seed with
  | some seed => bodyOf settings.path settings.message seed
  | none =>
      stage .curve [] (rest.draw seedSize) fun drawn =>
        (bodyOf settings.path settings.message drawn.1.toList).after [seedLine drawn.1.toList]

section

variable {settings : Settings} {rest left : Entropy}

theorem reportOf_of_set {seed : Bytes} (chosen : settings.seed = some seed) :
    reportOf settings rest = bodyOf settings.path settings.message seed := by
  rw [reportOf, chosen]

theorem reportOf_of_drawn {seed : Octets seedSize} (unset : settings.seed = none)
    (drawn : rest.draw seedSize = .ok (seed, left)) :
    reportOf settings rest =
      (bodyOf settings.path settings.message seed.toList).after [seedLine seed.toList] := by
  rw [reportOf, unset, drawn]
  exact stage_ok _ _ _ _

end

private theorem ofResult_chooseSeed (settings : Settings) (rest : Entropy) :
    ofResult ((chooseSeed settings rest >>= linesOf settings).apply []) =
      reportOf settings rest := by
  obtain ⟨seed, path, message⟩ := settings
  cases seed with
  | some seed =>
      simp only [chooseSeed, reportOf, pure_bind]
      rw [ofResult_linesOf, after_nil]
  | none =>
      simp only [chooseSeed, reportOf, print, bind_assoc, pure_bind, ofResult_bind]
      refine congrArg (stage .curve [] (rest.draw seedSize)) (funext fun drawn => ?_)
      rw [ofResult_modify_bind, ofResult_linesOf, List.nil_append]

theorem outcome_eq (env : Environment) (source : Entropy) :
    outcome env source =
      stage .engine [] (started env source) fun rest =>
        stage .config [] (Settings.ofEnvironment env) fun settings => reportOf settings rest := by
  have same : outcome env source = ofResult ((run env source).apply []) := by
    unfold outcome
    cases (run env source).apply [] with
    | mk answer lines => cases answer <;> rfl
  rw [same, run, started]
  cases (Engine.startFrom env source).apply Engine.idle with
  | mk answer left =>
      simp only [ofResult_bind, ofResult_chooseSeed]

section

variable {env : Environment} {source rest : Entropy} {settings : Settings}

/-- The engine is started in the same way whatever the other variables hold. -/
theorem started_withText {name : String} (lock : name ≠ "COINKEY_MEMORY_LOCK")
    (check : name ≠ "COINKEY_SANITY_CHECK") (s : String) (source : Entropy) :
    started (env.withText name s) source = started env source := by
  have switch (fault : ConfigError) (apart : fault.subject ≠ name) :
      EngineConfig.readSwitch (env.withText name s) fault = EngineConfig.readSwitch env fault := by
    rw [EngineConfig.readSwitch, Environment.text?_withText_of_ne apart, EngineConfig.readSwitch]
  rw [started, Engine.startFrom, EngineConfig.ofEnvironment, switch .memoryLock lock.symm,
    switch .sanityCheck check.symm]
  rfl

theorem outcome_of_started (begun : started env source = .ok rest)
    (read : Settings.ofEnvironment env = .ok settings) :
    outcome env source = reportOf settings rest := by
  rw [outcome_eq, begun, read, stage_ok, stage_ok]

end

/-! ### Runs without an error -/

theorem Outcome.status_eq_zero_iff {o : Outcome} : o.status = 0 ↔ o.error = none := by
  rw [Outcome.status]
  cases o.error <;> simp

theorem exists_of_nodesOf {path : Path} {seed : Bytes} {nodes : Nodes}
    (made : nodesOf path seed = .ok nodes) : ∃ root, PrivateNode.ofSeed seed = .ok root ∧
      root.derivePath path = .ok nodes.leaf ∧ nodes.leaf.neuter = .ok nodes.leafPublic ∧
        root.neuter = .ok nodes.rootPublic := by
  obtain ⟨root, seeded, made⟩ := bind_eq_ok_iff.mp made
  obtain ⟨leaf, derived, made⟩ := bind_eq_ok_iff.mp made
  obtain ⟨leafPublic, leaf_neutered, made⟩ := bind_eq_ok_iff.mp made
  obtain ⟨rootPublic, root_neutered, same⟩ := bind_eq_ok_iff.mp made
  cases same
  exact ⟨root, seeded, derived, leaf_neutered, root_neutered⟩

theorem exists_of_bodyOf {path : Path} {message : Option String} {seed : Bytes}
    (clean : (bodyOf path message seed).error = none) : ∃ nodes lines,
      nodesOf path seed = .ok nodes ∧ messageLines nodes.leaf message = .ok lines ∧
        (bodyOf path message seed).lines = nodes.lines path ++ lines := by
  obtain ⟨nodes, made, clean⟩ := exists_of_error_stage _ _ clean
  obtain ⟨lines, signed, -⟩ := exists_of_error_stage _ _ clean
  refine ⟨nodes, lines, made, signed, ?_⟩
  rw [bodyOf, made, stage_ok, signed, stage_ok]

theorem exists_of_reportOf {settings : Settings} {rest : Entropy}
    (clean : (reportOf settings rest).error = none) : ∃ (shown : Option String) (seed : Bytes),
      (bodyOf settings.path settings.message seed).error = none ∧
        (reportOf settings rest).lines = shown.toList.map ("seed:        " ++ ·) ++
          (bodyOf settings.path settings.message seed).lines := by
  cases chosen : settings.seed with
  | some seed =>
      rw [reportOf_of_set chosen] at clean ⊢
      refine ⟨none, seed, clean, ?_⟩
      rw [Option.toList_none, List.map_nil, List.nil_append]
  | none =>
      have drawing := clean
      rw [reportOf, chosen] at drawing
      obtain ⟨⟨seed, left⟩, drawn, -⟩ := exists_of_error_stage _ _ drawing
      rw [reportOf_of_drawn chosen drawn] at clean ⊢
      rw [error_after] at clean
      refine ⟨some (Hex.encode seed.toList), seed.toList, clean, ?_⟩
      rw [Option.toList_some, List.map_singleton, List.singleton_append]
      exact lines_after_singleton _ _

/-! ### A run on the root -/

/-- The environment that asks for no self test and for the root, with a space before the path. -/
def rootEnvironment : Environment :=
  (Environment.withText (fun _ => none) "COINKEY_SANITY_CHECK" "false").withText "COINKEY_PATH" " m"

def sampleSeed : Octets seedSize := ⟨List.replicate 32 0xab, rfl⟩

theorem started_rootEnvironment (source : Entropy) : started rootEnvironment source = .ok source :=
  rfl

theorem ofEnvironment_rootEnvironment :
    Settings.ofEnvironment rootEnvironment = .ok ⟨none, Path.root, none⟩ := by
  decide +kernel

private theorem exists_root_sampleSeed : ∃ root, PrivateNode.ofSeed sampleSeed.toList = .ok root :=
  exists_of_toBool (by decide +kernel)

theorem exists_outcome_sampleSeed : ∃ nodes : Nodes,
    outcome rootEnvironment ⟨sampleSeed.toList⟩ =
      ⟨seedLine sampleSeed.toList :: nodes.lines Path.root, none⟩ := by
  obtain ⟨root, made⟩ := exists_root_sampleSeed
  obtain ⟨rootPublic, neutered⟩ := (PrivateNode.wellFormed_of_ofSeed made).exists_neuter
  have stays : root.derivePath Path.root = .ok root := rfl
  have nodes : nodesOf Path.root sampleSeed.toList = .ok ⟨root, rootPublic, rootPublic⟩ := by
    rw [nodesOf, made, ok_bind, stays, ok_bind, neutered]
    rfl
  have drawn : Entropy.draw ⟨sampleSeed.toList⟩ seedSize = .ok (sampleSeed, ⟨[]⟩) := rfl
  refine ⟨⟨root, rootPublic, rootPublic⟩, ?_⟩
  rw [outcome_of_started (started_rootEnvironment _) ofEnvironment_rootEnvironment,
    reportOf_of_drawn rfl drawn, bodyOf, nodes, stage_ok, messageLines, stage_ok, List.append_nil,
    after_mk, List.singleton_append]

end KeyTree.Report
