import Mathlib.Logic.Function.Basic

/-!
# Replacing files by renaming

A writer replaces files one after the other. The new content goes to a temporary file
beside the old one, `tmp path`, and a rename puts it in place. `IoStep` is one step on
the disk and `Crash` the end of the process at any point, also inside a write.

A rename happens at once or not at all. A write that completes is not lost later; one
that does not leaves the temporary file as it was or holding a prefix of the content.

`Sound` is the invariant: files in place are complete. It is kept by `Sound.io` and
`Sound.crash`, for whatever temporary files lie around.
-/

namespace Foundation

namespace Replace

/-- A file to replace, and its new content. -/
structure Job (π β : Type*) where
  path : π
  content : List β

/-- A writer in the middle of its jobs. It is `ready` when the temporary file of the
first job is written. -/
structure Writer (π β : Type*) where
  disk : π → Option (List β)
  todo : List (Job π β)
  ready : Bool

/-- What a write that does not complete may leave in its file. -/
def Torn {β : Type*} (before after : Option (List β)) (content : List β) : Prop :=
  after = before ∨ ∃ n, after = some (content.take n)

section Steps

variable {π β : Type*} [DecidableEq π]

/-- One step of the writer on the disk. After a failure it goes on to its next job. -/
inductive IoStep (tmp : π → π) : Writer π β → Writer π β → Prop
  | write {disk : π → Option (List β)} {job : Job π β} {rest : List (Job π β)} :
    IoStep tmp ⟨disk, job :: rest, false⟩
      ⟨Function.update disk (tmp job.path) (some job.content), job :: rest, true⟩
  | writeFails {disk : π → Option (List β)} {job : Job π β} {rest : List (Job π β)}
      {left : Option (List β)} :
    Torn (disk (tmp job.path)) left job.content →
    IoStep tmp ⟨disk, job :: rest, false⟩
      ⟨Function.update disk (tmp job.path) left, rest, false⟩
  | rename {disk : π → Option (List β)} {job : Job π β} {rest : List (Job π β)} :
    IoStep tmp ⟨disk, job :: rest, true⟩
      ⟨Function.update (Function.update disk job.path (disk (tmp job.path)))
        (tmp job.path) none, rest, false⟩
  | renameFails {disk : π → Option (List β)} {job : Job π β} {rest : List (Job π β)} :
    IoStep tmp ⟨disk, job :: rest, true⟩ ⟨disk, rest, false⟩

/-- The process ends, between two steps or inside a write. -/
inductive Crash (tmp : π → π) : Writer π β → Writer π β → Prop
  | between {w : Writer π β} : Crash tmp w ⟨w.disk, [], false⟩
  | inWrite {disk : π → Option (List β)} {job : Job π β} {rest : List (Job π β)}
      {left : Option (List β)} :
    Torn (disk (tmp job.path)) left job.content →
    Crash tmp ⟨disk, job :: rest, false⟩ ⟨Function.update disk (tmp job.path) left, [], false⟩

end Steps

/-! ## Files in place are complete -/

/-- Every final file is `good`, and so is the content of every job. Of the temporary
files only one counts: that of the first job, once it is written. -/
structure Sound {π β : Type*} (tmp : π → π) (final : π → Prop) (good : π → List β → Prop)
    (w : Writer π β) : Prop where
  files : ∀ path content, final path → w.disk path = some content → good path content
  jobs : ∀ job ∈ w.todo, final job.path ∧ good job.path job.content
  written : w.ready = true → ∀ job ∈ w.todo.head?,
    w.disk (tmp job.path) = some job.content

namespace Sound

variable {π β : Type*} {tmp : π → π} {final : π → Prop} {good good' : π → List β → Prop}
  {w w' : Writer π β}

theorem mono (sound : Sound tmp final good w)
    (weaker : ∀ path content, good path content → good' path content) :
    Sound tmp final good' w where
  files path content isFinal found := weaker path content (sound.files path content isFinal found)
  jobs job member := ⟨(sound.jobs job member).1, weaker _ _ (sound.jobs job member).2⟩
  written := sound.written

/-- An idle writer takes new jobs. -/
theorem begin {jobs : List (Job π β)} (sound : Sound tmp final good w)
    (new : ∀ job ∈ jobs, final job.path ∧ good job.path job.content) :
    Sound tmp final good ⟨w.disk, jobs, false⟩ where
  files := sound.files
  jobs := new
  written isReady := by cases isReady

variable [DecidableEq π]

/-- A write, complete or not, changes no final file. -/
theorem write_files {disk : π → Option (List β)} {path : π} {left : Option (List β)}
    (files : ∀ path content, final path → disk path = some content → good path content)
    (apart : ∀ path', final path' → path' ≠ tmp path) :
    ∀ path' content, final path' →
      Function.update disk (tmp path) left path' = some content → good path' content := by
  intro path' content isFinal found
  rw [Function.update_of_ne (apart path' isFinal)] at found
  exact files path' content isFinal found

/-- No step on the disk leaves a final file that is not complete. -/
theorem io (apart : ∀ path path', final path → final path' → path ≠ tmp path')
    (sound : Sound tmp final good w) (step : IoStep tmp w w') : Sound tmp final good w' := by
  cases step with
  | @write disk job rest =>
      have isFinal := (sound.jobs job List.mem_cons_self).1
      refine ⟨write_files sound.files fun path final => apart path _ final isFinal, sound.jobs, ?_⟩
      intro _ first isFirst
      obtain rfl := Option.some.inj isFirst
      exact Function.update_self _ _ _
  | @writeFails disk job rest left torn =>
      have isFinal := (sound.jobs job List.mem_cons_self).1
      refine ⟨write_files sound.files fun path final => apart path _ final isFinal, ?_, ?_⟩
      · exact fun later member => sound.jobs later (List.mem_cons_of_mem _ member)
      · intro isReady
        cases isReady
  | @rename disk job rest =>
      have here := sound.jobs job List.mem_cons_self
      have complete : disk (tmp job.path) = some job.content := sound.written rfl job rfl
      refine ⟨fun path content isFinal found => ?_, ?_, ?_⟩
      · -- The file of this job is its temporary file; every other one is as before.
        dsimp only at found
        rw [Function.update_of_ne (apart path _ isFinal here.1)] at found
        by_cases same : path = job.path
        · subst same
          rw [Function.update_self, complete, Option.some.injEq] at found
          rw [← found]
          exact here.2
        · rw [Function.update_of_ne same] at found
          exact sound.files path content isFinal found
      · exact fun later member => sound.jobs later (List.mem_cons_of_mem _ member)
      · intro isReady
        cases isReady
  | @renameFails disk job rest =>
      refine ⟨sound.files, fun later member => ?_, ?_⟩
      · exact sound.jobs later (List.mem_cons_of_mem _ member)
      · intro isReady
        cases isReady

/-- Nor does a crash. -/
theorem crash (apart : ∀ path path', final path → final path' → path ≠ tmp path')
    (sound : Sound tmp final good w) (ended : Crash tmp w w') : Sound tmp final good w' := by
  have nothing : ∀ job ∈ ([] : List (Job π β)), final job.path ∧ good job.path job.content := by
    simp
  cases ended with
  | between => exact sound.begin nothing
  | @inWrite disk job rest left torn =>
      have isFinal := (sound.jobs job List.mem_cons_self).1
      refine ⟨write_files sound.files fun path final => apart path _ final isFinal, nothing, ?_⟩
      intro isReady
      cases isReady

end Sound

end Replace

end Foundation
