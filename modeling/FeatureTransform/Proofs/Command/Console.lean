import FeatureTransform.Command.Folders

/-!
# Steps of commands

A step goes on from the console that the step in front has left, unless that has failed. Steps that
only look around leave remarks: they show no line, write no file and change no folder.
-/

namespace FeatureTransform.Command

namespace Step

variable {α β : Type} {x : Step α} {f : α → Step β} {console next : Console} {a : α}
  {failure : Failure}

/-- A step that is done hands its result and its console on to the next. -/
theorem run_bind_ok (f : α → Step β) (h : x.run.run console = (.ok a, next)) :
    (x >>= f).run.run console = (f a).run.run next := by
  rw [ExceptT.run_bind, StateT.run_bind, h]
  rfl

/-- A step that fails ends the command, on the console as it has left it. -/
theorem run_bind_error (f : α → Step β) (h : x.run.run console = (.error failure, next)) :
    (x >>= f).run.run console = (.error failure, next) := by
  rw [ExceptT.run_bind, StateT.run_bind, h]
  rfl

/-! ## Looking around -/

/-- All that the step leaves are remarks. -/
def OnlyRemarks (x : Step α) : Prop := ∀ console, ∃ outcome remarks,
  x.run.run console = (outcome, { console with remarks := remarks })

theorem onlyRemarks_pure (a : α) : OnlyRemarks (pure a) := fun console =>
  ⟨.ok a, console.remarks, rfl⟩

theorem onlyRemarks_throw (failure : Failure) : OnlyRemarks (throw failure : Step α) :=
  fun console => ⟨.error failure, console.remarks, rfl⟩

theorem onlyRemarks_tree : OnlyRemarks tree := fun console =>
  ⟨.ok console.tree, console.remarks, rfl⟩

theorem onlyRemarks_note (level : Level) (source text : String) :
    OnlyRemarks (note level source text) := fun _ => ⟨.ok (), _, rfl⟩

theorem onlyRemarks_ofNoted (noted : Noted α) : OnlyRemarks (ofNoted noted) :=
  fun _ => ⟨.ok noted.value, _, rfl⟩

/-- Steps that leave remarks leave remarks one after another, also if the first fails and the second
is not taken. -/
theorem OnlyRemarks.bind (hx : OnlyRemarks x) (hf : ∀ a, OnlyRemarks (f a)) :
    OnlyRemarks (x >>= f) := by
  intro console
  obtain ⟨outcome, remarks, hrun⟩ := hx console
  cases outcome with
  | error failure => exact ⟨.error failure, remarks, run_bind_error f hrun⟩
  | ok a =>
    obtain ⟨outcome, remarks, hnext⟩ := hf a { console with remarks := remarks }
    exact ⟨outcome, remarks, (run_bind_ok f hrun).trans hnext⟩

theorem onlyRemarks_ofNotedResult (noted : Noted (Except Failure α)) :
    OnlyRemarks (ofNotedResult noted) := by
  refine (onlyRemarks_ofNoted noted).bind fun result => ?_
  cases result with
  | ok a => exact onlyRemarks_pure a
  | error failure => exact onlyRemarks_throw failure

end Step

variable {places : Places} {general : General}

open Step (OnlyRemarks)

/-- Loading the settings writes nothing, whether the file is there, is missing or cannot be read. -/
theorem onlyRemarks_loadSettings (places : Places) : OnlyRemarks (loadSettings places) := by
  rw [loadSettings]
  cases places.settings? with
  | some path => exact Step.onlyRemarks_tree.bind fun tree => Step.onlyRemarks_ofNotedResult _
  | none => exact (Step.onlyRemarks_note _ _ _).bind fun _ => Step.onlyRemarks_pure _

/-- Choosing the folders leaves remarks: the settings are loaded only where no folder is given with
the command. -/
theorem onlyRemarks_foldersFor (places : Places) (general : General) :
    OnlyRemarks (foldersFor places general) := by
  rw [foldersFor]
  split
  · exact (onlyRemarks_loadSettings places).bind fun settings => Step.onlyRemarks_pure _
  · exact Step.onlyRemarks_pure _

end FeatureTransform.Command
