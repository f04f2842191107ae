import KeyTree.Proofs.Report.Runs
/-!
A run can be repeated from what it prints.

A run with a seed set does not look at random bytes after the start of the engine, so a run that
draws its seed prints this seed and then what the run with the seed set prints.  The path that is
printed is read as the path of the run.
-/

set_option autoImplicit false
set_option relaxedAutoImplicit false

namespace KeyTree.Report

open Outcome

/-- A run in which a seed is drawn: the variable of the seed is not set to a text, the settings are
accepted, the engine starts, and enough random bytes are left. -/
structure DrawsSeed (env : Environment) (source : Entropy) (seed : Octets seedSize) : Prop where
  unset : env.text? "COINKEY_SEED" = none
  accepted : ∃ settings, Settings.ofEnvironment env = .ok settings
  drawn : ∃ rest left, started env source = .ok rest ∧ rest.draw seedSize = .ok (seed, left)

variable {env : Environment} {source source' rest rest' : Entropy} {seed : Octets seedSize}

private theorem DrawsSeed.outcome_eq (draws : DrawsSeed env source seed) {settings : Settings}
    (read : Settings.ofEnvironment env = .ok settings) :
    outcome env source =
      (bodyOf settings.path settings.message seed.toList).after [seedLine seed.toList] := by
  obtain ⟨rest, left, begun, drawn⟩ := draws.drawn
  obtain ⟨seed_read, -, -⟩ := Settings.ofEnvironment_eq_ok_iff.mp read
  have none_set : settings.seed = none :=
    (Except.ok.inj ((Settings.seedOf_of_unset draws.unset).symm.trans seed_read)).symm
  rw [outcome_of_started begun read, reportOf_of_drawn none_set drawn]

/-- With a text for the seed that was drawn, a run leaves behind what is left after the line that
shows the seed. -/
theorem DrawsSeed.outcome_eq_after (draws : DrawsSeed env source seed) {text : String}
    (seed_read : Settings.readSeed text = .ok seed.toList)
    (begun : started env source' = .ok rest') :
    outcome env source =
      (outcome (env.withText "COINKEY_SEED" text) source').after [seedLine seed.toList] := by
  obtain ⟨settings, read⟩ := draws.accepted
  have kept : started (env.withText "COINKEY_SEED" text) source' = started env source' :=
    started_withText (by decide) (by decide) text source'
  rw [← kept] at begun
  rw [draws.outcome_eq read,
    outcome_of_started begun (Settings.ofEnvironment_withText_seed read seed_read),
    reportOf_of_set rfl]

/-- A run with a seed set does not depend on the random bytes, as long as the engine starts. -/
theorem outcome_eq_of_started (isSet : (env.text? "COINKEY_SEED").isSome = true)
    (begun : started env source = .ok rest) (begun' : started env source' = .ok rest') :
    outcome env source = outcome env source' := by
  rw [outcome_eq, outcome_eq, begun, begun', stage_ok, stage_ok]
  cases read : Settings.ofEnvironment env with
  | error fault => rfl
  | ok settings =>
      obtain ⟨seed, chosen⟩ := Settings.exists_seedOf_of_set isSet read
      rw [stage_ok, stage_ok, reportOf_of_set chosen, reportOf_of_set chosen]

/-! ### The printed path -/

private theorem path_line_ne {label text other : String} {c : Char}
    (first : label.toList.head? = some c)
    (apart : 'p' ≠ c) : "path:        " ++ text ≠ label ++ other := by
  intro same
  have heads := congrArg (fun line => line.toList.head?) same
  simp only [String.toList_append, List.head?_append, first, Option.some_or] at heads
  exact apart (Option.some.inj heads)

private theorem eq_text_of_mem_lines {nodes : Nodes} {path : Path} {text : String}
    (member : "path:        " ++ text ∈ nodes.lines path) : text = path.text := by
  simp only [Nodes.lines, treeLines, List.mem_cons, List.not_mem_nil, or_false] at member
  rcases member with master | path | leaf | key | id
  · exact absurd master (path_line_ne rfl (by decide))
  · exact (String.append_right_inj _).mp path
  · exact absurd leaf (path_line_ne rfl (by decide))
  · exact absurd key (path_line_ne rfl (by decide))
  · exact absurd id (path_line_ne rfl (by decide))

private theorem path_not_mem_messageLines {leaf : PrivateNode} {message : Option String}
    {lines : List String} (made : messageLines leaf message = .ok lines) (text : String) :
    "path:        " ++ text ∉ lines := by
  intro member
  cases message with
  | none =>
      cases made
      cases member
  | some message =>
      obtain ⟨der, -, made⟩ := bind_eq_ok_iff.mp made
      obtain ⟨compact, -, same⟩ := bind_eq_ok_iff.mp made
      cases same
      simp only [List.mem_cons, List.not_mem_nil, or_false] at member
      rcases member with signature | compact
      · exact absurd signature (path_line_ne rfl (by decide))
      · exact absurd compact (path_line_ne rfl (by decide))

private theorem eq_text_of_mem_bodyOf {path : Path} {message : Option String} {seed : Bytes}
    {text : String} (member : "path:        " ++ text ∈ (bodyOf path message seed).lines) :
    text = path.text := by
  rcases mem_lines_stage _ _ member with none_before | ⟨nodes, -, member⟩
  · cases none_before
  rcases mem_lines_stage _ _ member with tree | ⟨lines, made, member⟩
  · exact eq_text_of_mem_lines tree
  rcases List.mem_append.mp member with tree | signature
  · exact eq_text_of_mem_lines tree
  · exact absurd signature (path_not_mem_messageLines made text)

private theorem path_of_mem_outcome {text : String}
    (member : "path:        " ++ text ∈ (outcome env source).lines) :
    ∃ settings, Settings.ofEnvironment env = .ok settings ∧ text = settings.path.text := by
  rw [outcome_eq] at member
  rcases mem_lines_stage _ _ member with none_before | ⟨rest, -, member⟩
  · cases none_before
  rcases mem_lines_stage _ _ member with none_before | ⟨settings, read, member⟩
  · cases none_before
  refine ⟨settings, read, ?_⟩
  rw [reportOf] at member
  split at member
  · exact eq_text_of_mem_bodyOf member
  · rcases mem_lines_stage _ _ member with none_before | ⟨drawn, -, member⟩
    · cases none_before
    rw [lines_after_singleton] at member
    rcases List.mem_cons.mp member with seed | member
    · exact absurd seed (path_line_ne rfl (by decide))
    · exact eq_text_of_mem_bodyOf member

private theorem outcome_withText_path {text : String}
    (member : "path:        " ++ text ∈ (outcome env source).lines) :
    outcome (env.withText "COINKEY_PATH" text) source = outcome env source := by
  obtain ⟨settings, read, rfl⟩ := path_of_mem_outcome member
  have kept : started (env.withText "COINKEY_PATH" settings.path.text) source =
      started env source := started_withText (by decide) (by decide) _ source
  rw [outcome_eq, outcome_eq, kept, read, Settings.ofEnvironment_withText_path read]

/-! ### Repeated runs -/

/-- A run that draws its seed prints the line with the seed, and then it leaves behind what a run
does in which this seed is set, in either case and with white space at its ends.  With the path that
was printed a run leaves behind the same.  If a seed is set, the random bytes make no difference. -/
theorem outcome_reproducible :
    (∀ env source (seed : Octets seedSize), DrawsSeed env source seed →
      ∀ before cs after source' rest', Text.Blank before → Hex.Spells cs seed.toList →
        Text.Blank after → started env source' = .ok rest' →
          let text := String.ofList (before ++ (cs ++ after))
          let again := outcome (env.withText "COINKEY_SEED" text) source'
          (outcome env source).lines = seedLine seed.toList :: again.lines ∧
            (outcome env source).status = again.status ∧
            (outcome env source).errorLine? = again.errorLine?) ∧
    (∀ env source text, "path:        " ++ text ∈ (outcome env source).lines →
      outcome (env.withText "COINKEY_PATH" text) source = outcome env source) ∧
    ∀ env source source' rest rest', (env.text? "COINKEY_SEED").isSome = true →
      started env source = .ok rest → started env source' = .ok rest' →
        outcome env source = outcome env source' := by
  refine ⟨?_, fun env source text => outcome_withText_path,
    fun env source source' rest rest' => outcome_eq_of_started⟩
  intro env source seed draws before cs after source' rest' blank_before spells blank_after begun
    text again
  have length_ok : Settings.isSeedLength seed.toList.length = true := by
    rw [seed.length_eq]
    rfl
  have seed_read := Settings.readSeed_eq_ok blank_before spells blank_after length_ok
  have same : outcome env source = again.after [seedLine seed.toList] :=
    draws.outcome_eq_after seed_read begun
  rw [same]
  exact ⟨lines_after_singleton _ again, status_after _ again, errorLine?_after _ again⟩

/-- The sample seed in upper case between white space. -/
def sampleText : String :=
  String.ofList ([' '] ++ ((Hex.encodeChars sampleSeed.toList).map Char.toUpper ++ ['\n']))

def repeatedEnvironment : Environment :=
  rootEnvironment.withText "COINKEY_SEED" sampleText

theorem outcome_reproducible_sampleSeed :
    (outcome rootEnvironment ⟨sampleSeed.toList⟩).lines =
      seedLine sampleSeed.toList :: (outcome repeatedEnvironment ⟨[]⟩).lines ∧
    (outcome rootEnvironment ⟨sampleSeed.toList⟩).status =
      (outcome repeatedEnvironment ⟨[]⟩).status ∧
    outcome (rootEnvironment.withText "COINKEY_PATH" "m") ⟨sampleSeed.toList⟩ =
      outcome rootEnvironment ⟨sampleSeed.toList⟩ ∧
    outcome repeatedEnvironment ⟨[]⟩ = outcome repeatedEnvironment ⟨[0]⟩ := by
  obtain ⟨seeds, paths, sources⟩ := outcome_reproducible
  have draws : DrawsSeed rootEnvironment ⟨sampleSeed.toList⟩ sampleSeed := {
    unset := rfl
    accepted := ⟨_, ofEnvironment_rootEnvironment⟩
    drawn := ⟨_, ⟨[]⟩, started_rootEnvironment _, rfl⟩ }
  have space : Text.Blank [' '] := List.forall_mem_singleton.mpr rfl
  have line : Text.Blank ['\n'] := List.forall_mem_singleton.mpr rfl
  have begun (source : Entropy) : started repeatedEnvironment source = .ok source :=
    (started_withText (by decide) (by decide) sampleText source).trans
      (started_rootEnvironment source)
  obtain ⟨lines, status, -⟩ := seeds rootEnvironment _ sampleSeed draws [' '] _ ['\n'] ⟨[]⟩ ⟨[]⟩
    space (Hex.spells_toUpper sampleSeed.toList) line (started_rootEnvironment _)
  obtain ⟨nodes, printed⟩ := exists_outcome_sampleSeed
  have path : "path:        " ++ "m" ∈ (outcome rootEnvironment ⟨sampleSeed.toList⟩).lines := by
    rw [printed, Nodes.lines, treeLines]
    exact List.mem_cons_of_mem _ (List.mem_cons_of_mem _ List.mem_cons_self)
  exact ⟨lines, status, paths rootEnvironment _ "m" path,
    sources repeatedEnvironment _ _ _ _ rfl (begun ⟨[]⟩) (begun ⟨[0]⟩)⟩

end KeyTree.Report
