import BuildSteps.Settings

/-!
# Merged settings

Merging replaces whole sections: a section of the later settings takes the place of the earlier one,
and what only the earlier one said is gone. Value by value this is an overlay just when no section
of the later settings leaves out a value that the earlier settings give.
-/

namespace BuildSteps.Settings

/-! ## 1. Values -/

structure Values where
  qtDir : Option Path
  protoc : Option Path
  protocDebug : Option Path
  logLevel : Option String
  deriving DecidableEq, Repr

def values (s : Settings) : Values := ⟨s.qtDir, s.protoc, s.protocDebug, s.logLevel⟩

def Values.over (first second : Values) : Values where
  qtDir := first.qtDir <|> second.qtDir
  protoc := first.protoc <|> second.protoc
  protocDebug := first.protocDebug <|> second.protocDebug
  logLevel := first.logLevel <|> second.logLevel

/-- Whether every section of the later settings gives the values that the earlier settings give in
it. -/
structure Covers (later earlier : Settings) : Prop where
  qtDir : later.tools.isSome → earlier.qtDir.isSome → later.qtDir.isSome
  protoc : later.tools.isSome → earlier.protoc.isSome → later.protoc.isSome
  protocDebug : later.tools.isSome → earlier.protocDebug.isSome → later.protocDebug.isSome
  logLevel : later.logging.isSome → earlier.logLevel.isSome → later.logLevel.isSome

/-- Whether every section that is there gives all of its values. -/
structure IsComplete (s : Settings) : Prop where
  tools : ∀ tools ∈ s.tools, tools.qtDir.isSome ∧ tools.protoc.isSome ∧ tools.protocDebug.isSome
  logging : ∀ logging ∈ s.logging, logging.level.isSome

/-! ## 2. Merging -/

/-- A value is taken from the later of two sections, which may not give it. It is the value that an
overlay would give just when nothing is lost. -/
theorem bind_orElse_eq_iff {σ α : Type} (later earlier : Option σ) (value : σ → Option α) :
    (later <|> earlier).bind value = (later.bind value <|> earlier.bind value) ↔
      (later.isSome → (earlier.bind value).isSome → (later.bind value).isSome) := by
  cases later with
  | none => simp
  | some s =>
    show value s = (value s <|> earlier.bind value) ↔ _
    cases hvalue : value s with
    | some v => simp [hvalue]
    | none => cases hearlier : earlier.bind value <;> simp [hvalue]

theorem merge_values_eq_iff (earlier later : Settings) :
    (earlier.merge later).values = later.values.over earlier.values ↔ later.Covers earlier := by
  have htools {α : Type} (value : ToolSettings → Option α) :=
    bind_orElse_eq_iff later.tools earlier.tools value
  have hlogging := bind_orElse_eq_iff later.logging earlier.logging LogSettings.level
  constructor
  · intro h
    obtain ⟨hqt, hprotoc, hdebug, hlevel⟩ := Values.mk.inj h
    exact ⟨(htools _).1 hqt, (htools _).1 hprotoc, (htools _).1 hdebug, hlogging.1 hlevel⟩
  · intro h
    have hqt := (htools _).2 h.qtDir
    have hprotoc := (htools _).2 h.protoc
    have hdebug := (htools _).2 h.protocDebug
    have hlevel := hlogging.2 h.logLevel
    exact Values.mk.injEq .. ▸ ⟨hqt, hprotoc, hdebug, hlevel⟩

def full : Settings :=
  ⟨some ⟨some ⟨"/qt"⟩, some ⟨"/bin/protoc"⟩, some ⟨"/bin/protoc_d"⟩⟩, some ⟨some "info"⟩⟩

/-- Complete sections cover whatever was there before, and no others do. -/
theorem forall_covers_iff {later : Settings} :
    (∀ earlier, later.Covers earlier) ↔ later.IsComplete := by
  obtain ⟨tools, logging⟩ := later
  constructor
  · intro h
    have hfull := h full
    refine ⟨?_, ?_⟩
    · rintro given rfl
      exact ⟨hfull.qtDir rfl rfl, hfull.protoc rfl rfl, hfull.protocDebug rfl rfl⟩
    · rintro given rfl
      exact hfull.logLevel rfl rfl
  · intro h earlier
    refine ⟨fun hthere _ => ?_, fun hthere _ => ?_, fun hthere _ => ?_, fun hthere _ => ?_⟩
    all_goals obtain ⟨given, rfl⟩ := Option.isSome_iff_exists.1 hthere
    · exact (h.tools given rfl).1
    · exact (h.tools given rfl).2.1
    · exact (h.tools given rfl).2.2
    · exact h.logging given rfl

/-- **Merging is by sections.** Merged settings give the values of the later ones over those of the
earlier ones just when the later sections leave out none that the earlier settings give in them, and
they do so whatever was there before just when these sections are complete. Merging is associative
all the same, and settings that say nothing change nothing. -/
theorem merge_exact (a b c : Settings) :
    ((a.merge b).values = b.values.over a.values ↔ b.Covers a) ∧
    ((∀ earlier : Settings, (earlier.merge b).values = b.values.over earlier.values) ↔
      b.IsComplete) ∧
    (a.merge b).merge c = a.merge (b.merge c) ∧ a.merge empty = a ∧ empty.merge a = a := by
  refine ⟨merge_values_eq_iff a b, ?_, ?_, ?_, ?_⟩
  · rw [← forall_covers_iff]
    exact forall_congr' fun earlier => merge_values_eq_iff earlier b
  · obtain ⟨ctools, clogging⟩ := c
    cases ctools <;> cases clogging <;> rfl
  · rfl
  · obtain ⟨tools, logging⟩ := a
    cases tools <;> cases logging <;> rfl

def otherQt : Settings := ⟨some ⟨some ⟨"/qt6"⟩, none, none⟩, none⟩

/-- The schema compilers of the earlier settings are gone. -/
theorem merge_loses_values :
    (full.merge otherQt).values = ⟨some ⟨"/qt6"⟩, none, none, some "info"⟩ ∧
      otherQt.values.over full.values =
        ⟨some ⟨"/qt6"⟩, some ⟨"/bin/protoc"⟩, some ⟨"/bin/protoc_d"⟩, some "info"⟩ := by
  decide

end BuildSteps.Settings
