import BuildSteps.Proofs.Finalization

/-!
# What finalization changes

Finalization goes through a table entry by entry and stops at the first one whose configuration is
missing or not resolved. What it has changed by then is said position by position: the steps that
the entries list and that had no bundle have one, and nothing else is different.
-/

namespace BuildSteps

/-! ## 1. Attaching, position by position -/

/-- A step with its first bundle. The precompiled header comes last among the forced includes of a
meta-object step on a header, unless it is there. -/
inductive Step.Attached (bundle : Bundle) (step : Step) : Step → Prop
  | headed {header : Path} (forced : bundle.forcedInclude = some header)
      (kind : step.kind = .metaObjectCompile) (source : step.sourceFile.isCppSource = false)
      (absent : header.isIn step.forceIncludes = false) :
      step.Attached bundle { step with
        forceIncludes := step.forceIncludes ++ [header]
        resolved := some bundle }
  | plain (present : ∀ header, bundle.forcedInclude = some header →
      step.kind = .metaObjectCompile → step.sourceFile.isCppSource = false →
        header.isIn step.forceIncludes = true) :
      step.Attached bundle { step with resolved := some bundle }

theorem Step.attached_attach {step : Step} (h : step.resolved = none) (bundle : Bundle) :
    step.Attached bundle (step.attach bundle) := by
  rw [attach, h, if_neg (by simp), forceIncludesWith]
  cases hforced : bundle.forcedInclude with
  | none => exact .plain fun header hheader => by rw [hforced] at hheader; cases hheader
  | some header =>
    by_cases haccepts : step.acceptsForcedInclude = true
    · obtain ⟨hkind, hsource⟩ := Bool.and_eq_true_iff.1 haccepts
      show step.Attached bundle { step with
        forceIncludes := if _ then Path.insertLast step.forceIncludes header else _
        resolved := _ }
      rw [if_pos haccepts, Path.insertLast]
      by_cases hpresent : header.isIn step.forceIncludes = true
      · rw [if_pos hpresent]
        refine .plain fun other hother _ _ => ?_
        obtain rfl := Option.some.inj (hforced.symm.trans hother)
        exact hpresent
      · rw [if_neg hpresent]
        exact .headed hforced (of_decide_eq_true hkind) (Bool.not_eq_true' _ ▸ hsource)
          (Bool.eq_false_iff.2 hpresent)
    · show step.Attached bundle { step with
        forceIncludes := if _ then _ else step.forceIncludes
        resolved := _ }
      rw [if_neg haccepts]
      refine .plain fun _ _ hkind hsource => absurd ?_ haccepts
      rw [acceptsForcedInclude, hkind, hsource]
      rfl

/-- A configuration in which a bundle is attached to the steps at the listed positions, as far as
they had none. -/
structure Configuration.Attached (conf : Configuration) (bundle : Bundle) (listed : Nat → Prop)
    (conf' : Configuration) : Prop where
  frame : { conf' with steps := conf.steps } = conf
  length : conf'.steps.length = conf.steps.length
  attached : ∀ i step, conf.steps[i]? = some step → listed i → step.resolved = none →
    ∃ step', conf'.steps[i]? = some step' ∧ step.Attached bundle step'
  kept : ∀ i step, conf.steps[i]? = some step → ¬ listed i ∨ step.resolved ≠ none →
    conf'.steps[i]? = some step

/-- A project in which the bundles are attached that a table asks for. A target stands for the first
configuration that has it. -/
structure Project.Attached (project : Project) (additional : List AdditionalDefinition)
    (table : StepTable) (project' : Project) : Prop where
  frame : { project' with configurations := project.configurations } = project
  length : project'.configurations.length = project.configurations.length
  attached : ∀ i conf, project.configurations[i]? = some conf →
    conf.target ∉ (project.configurations.take i).map (·.target) →
      ∃ conf', project'.configurations[i]? = some conf' ∧
        conf.Attached (conf.bundle additional)
          (fun j => ∃ entry ∈ table.entries, entry.target = conf.target ∧ j ∈ entry.steps) conf'
  kept : ∀ i conf, project.configurations[i]? = some conf →
    conf.target ∈ (project.configurations.take i).map (·.target) →
      project'.configurations[i]? = some conf

namespace Finalization

theorem attached_attachTable (additional : List AdditionalDefinition) (table : StepTable)
    (conf : Configuration) :
    conf.Attached (conf.bundle additional)
      (fun i => ∃ entry ∈ table.entries, entry.target = conf.target ∧ i ∈ entry.steps)
      (attachTable additional table conf) where
  frame := rfl
  length := List.length_mapIdx
  attached i step hstep hlisted hopen := by
    refine ⟨_, ?_, Step.attached_attach hopen _⟩
    rw [attachTable, getElem?_attachWhere, hstep, Option.map_some,
      if_pos (StepTable.lists_iff.2 hlisted)]
  kept i step hstep hkept := by
    rw [attachTable, getElem?_attachWhere, hstep, Option.map_some]
    rcases hkept with hnot | hdone
    · rw [if_neg (mt StepTable.lists_iff.1 hnot)]
    · rw [Step.attach, if_pos (Option.isSome_iff_ne_none.2 hdone), ite_self]

theorem attached_attachAll (additional : List AdditionalDefinition) (table : StepTable)
    (project : Project) : project.Attached additional table (attachAll additional table project) where
  frame := rfl
  length := Project.length_alterFirsts _ _ _
  attached i conf hconf hfirst := by
    refine ⟨_, ?_, attached_attachTable additional table conf⟩
    rw [attachAll, Project.getElem?_alterFirsts, hconf, Option.map_some,
      if_neg (not_or_intro List.not_mem_nil hfirst)]
  kept i conf hconf hlater := by
    rw [attachAll, Project.getElem?_alterFirsts, hconf, Option.map_some, if_pos (.inr hlater)]

end Finalization

/-! ## 2. Finalizing a table -/

namespace Finalization

theorem attachWhere_again (bundle other : Bundle) (listed : Nat → Bool) (steps : List Step) :
    attachWhere other listed (attachWhere bundle listed steps) = attachWhere bundle listed steps := by
  apply List.ext_getElem?
  intro i
  rw [getElem?_attachWhere, getElem?_attachWhere, Option.map_map]
  congr 1
  funext step
  rw [Function.comp_apply]
  cases listed i
  · rfl
  · exact step.attach_attach bundle other

/-- Attaching again, even with other definitions added, changes nothing. -/
theorem attachAll_again (additional other : List AdditionalDefinition) (table : StepTable)
    (project : Project) :
    attachAll other table (attachAll additional table project) =
      attachAll additional table project := by
  have htarget (conf : Configuration) : (attachTable additional table conf).target = conf.target :=
    rfl
  rw [attachAll, attachAll, Project.alterFirsts_alterFirsts htarget]
  congr 2
  funext conf
  show { conf with
      steps := attachWhere (conf.bundle other) (table.lists conf.target)
        (attachWhere _ _ conf.steps) } = _
  rw [attachWhere_again, attachTable]

end Finalization

open Finalization

/-- **What finalizing a table does.** It succeeds just when the first configuration for every target
of the table is there and resolved, and then counts every listed position that holds a step. It
attaches the bundles that the table asks for and changes nothing else; when it fails, it is the
entries in front of the refused one that are attached. Finalizing again has the same outcome and
changes nothing. -/
theorem finalizeSteps_exact (project : Project) (table : StepTable)
    (additional : List AdditionalDefinition) :
    ((∃ count, (finalizeSteps project table additional).1 = .ok count) ↔
      ∀ entry ∈ table.entries, project.standing? entry.target = some true) ∧
    (∀ count project', finalizeSteps project table additional = (.ok count, project') →
      count = (table.entries.map project.hits).sum ∧
        project.Attached additional table project') ∧
    (∀ e project', finalizeSteps project table additional = (.error e, project') →
      ∃ before entry after, table.entries = before ++ entry :: after ∧
        (∀ earlier ∈ before, project.standing? earlier.target = some true) ∧
        project.Refuses entry e ∧ project.Attached additional ⟨before⟩ project') ∧
    ∀ other, finalizeSteps (finalizeSteps project table additional).2 table other =
      finalizeSteps project table additional := by
  obtain ⟨entries⟩ := table
  rcases ready_or_refuses project entries with hready | ⟨before, entry, after, e, rfl, hbefore, h⟩
  · have hrun : finalizeSteps project ⟨entries⟩ additional = _ := finalizeEntries_of_ready hready 0
    rw [hrun, Nat.zero_add]
    refine ⟨⟨fun _ => hready, fun _ => ⟨_, rfl⟩⟩, ?_, ?_, fun other => ?_⟩
    · intro count project' heq
      obtain ⟨hcount, rfl⟩ := Prod.mk.inj heq
      exact ⟨(Except.ok.inj hcount).symm, attached_attachAll additional _ project⟩
    · intro e project' heq
      cases (Prod.mk.inj heq).1
    · rw [finalizeSteps, finalizeEntries_of_ready fun entry hentry =>
          (standing?_attachAll _ _ _ _).trans (hready entry hentry),
        attachAll_again, hits_attachAll, Nat.zero_add]
  · have hrun : finalizeSteps project ⟨before ++ entry :: after⟩ additional = _ :=
      finalizeEntries_of_refuses hbefore h 0 after
    have hrefused : ¬ ∀ other ∈ before ++ entry :: after,
        project.standing? other.target = some true := fun hall =>
      Project.exists_refuses_iff.1 ⟨e, h⟩ (hall entry (List.mem_append_right _ List.mem_cons_self))
    rw [hrun]
    refine ⟨⟨?_, fun hall => absurd hall hrefused⟩, ?_, ?_, fun other => ?_⟩
    · rintro ⟨count, hcount⟩
      cases hcount
    · intro count project' heq
      cases (Prod.mk.inj heq).1
    · intro e' project' heq
      obtain ⟨he, rfl⟩ := Prod.mk.inj heq
      obtain rfl := Except.error.inj he
      exact ⟨before, entry, after, rfl, hbefore, h, attached_attachAll additional _ project⟩
    · rw [finalizeSteps, finalizeEntries_of_refuses (fun earlier hearlier =>
          (standing?_attachAll _ _ _ _).trans (hbefore earlier hearlier))
        (refuses_attachAll h additional _), attachAll_again]

end BuildSteps
