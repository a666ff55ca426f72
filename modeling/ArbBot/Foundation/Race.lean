import ArbBot.Foundation.Runs
import Mathlib.Data.List.Perm.Basic
import Mathlib.Data.List.Nodup

/-!
# Races

Contenders are started in any order and answer in any order. The first success ends the race
and the others are dropped; when all have failed, the last failure is the outcome. `Sound` says
what the outcome tells about the contenders.
-/

namespace Foundation

open scoped List

/-- The contenders that are not started, those that are, the last failure and the outcome. A
success comes with its contender. `started` and `failed` are history variables. -/
structure Race (α ε : Type*) where
  waiting : List Nat
  running : List Nat
  lastErr : Option ε
  outcome : Option (Except ε (Nat × α))
  started : List Nat
  failed : List (Nat × ε)

namespace Race

variable {α ε : Type*}

/-- The contenders before the race. -/
def new (n : Nat) : Race α ε where
  waiting := List.range n
  running := []
  lastErr := none
  outcome := none
  started := []
  failed := []

/-- A contender that waits is started. -/
def start (race : Race α ε) (i : Nat) : Option (Race α ε) :=
  if race.outcome.isNone ∧ i ∈ race.waiting then
    some { race with
      waiting := race.waiting.erase i
      running := race.running ++ [i]
      started := race.started ++ [i] }
  else none

/-- A contender that runs answers. -/
def answer (race : Race α ε) (i : Nat) (result : Except ε α) : Option (Race α ε) :=
  if race.outcome.isNone ∧ i ∈ race.running then
    match result with
    | .ok a => some { race with running := race.running.erase i, outcome := some (.ok (i, a)) }
    | .error e =>
        some { race with
          running := race.running.erase i
          lastErr := some e
          failed := race.failed ++ [(i, e)] }
  else none

/-- No contender is left; without contenders the failure is `noContender`. -/
def close (race : Race α ε) (noContender : ε) : Option (Race α ε) :=
  if race.outcome.isNone ∧ race.waiting = [] ∧ race.running = [] then
    some { race with outcome := some (.error (race.lastErr.getD noContender)) }
  else none

/-- The contenders that have answered. -/
def answered (race : Race α ε) : List Nat :=
  race.failed.map Prod.fst ++
    match race.outcome with
    | some (.ok (i, _)) => [i]
    | _ => []

/-- What has been answered is of a kind. -/
structure Answers (P : Nat → Except ε α → Prop) (race : Race α ε) : Prop where
  won : ∀ i a, race.outcome = some (.ok (i, a)) → P i (.ok a)
  failed : ∀ f ∈ race.failed, P f.1 (.error f.2)

/-- Each contender waits, runs or has answered; those that do not wait were started, once each;
the race is open while all answers are failures and is lost when nobody else is left. -/
structure Sound (n : Nat) (noContender : ε) (race : Race α ε) : Prop where
  places : (race.waiting ++ (race.running ++ race.answered)).Perm (List.range n)
  started : race.started.Perm (race.running ++ race.answered)
  last : race.lastErr = race.failed.getLast?.map Prod.snd
  lost : ∀ e, race.outcome = some (.error e) →
    race.waiting = [] ∧ race.running = [] ∧ e = race.lastErr.getD noContender

section Steps

variable {n i : Nat} {noContender : ε} {race race' : Race α ε} {result : Except ε α}

theorem sound_new (n : Nat) (noContender : ε) : (new n : Race α ε).Sound n noContender where
  places := by simp [new, answered]
  started := .refl _
  last := rfl
  lost _ impossible := nomatch impossible

theorem answered_of_open (isOpen : race.outcome = none) :
    race.answered = race.failed.map Prod.fst := by
  rw [answered, isOpen, List.append_nil]

theorem Sound.start (sound : race.Sound n noContender) (went : race.start i = some race') :
    race'.Sound n noContender := by
  unfold Race.start at went
  split at went
  · rename_i given
    cases went
    obtain ⟨isOpen, waits⟩ := given
    rw [Option.isNone_iff_eq_none] at isOpen
    have moved : (race.waiting.erase i ++ ((race.running ++ [i]) ++ race.answered)).Perm
        (race.waiting ++ (race.running ++ race.answered)) := by
      calc race.waiting.erase i ++ ((race.running ++ [i]) ++ race.answered)
          = (race.waiting.erase i ++ race.running) ++ i :: race.answered := by simp
        _ ~ i :: ((race.waiting.erase i ++ race.running) ++ race.answered) := List.perm_middle
        _ = (i :: race.waiting.erase i) ++ (race.running ++ race.answered) := by simp
        _ ~ race.waiting ++ (race.running ++ race.answered) :=
            (List.perm_cons_erase waits).symm.append_right _
    refine ⟨moved.trans sound.places, ?_, sound.last, ?_⟩
    · calc race.started ++ [i]
          ~ (race.running ++ race.answered) ++ [i] := sound.started.append_right _
        _ = race.running ++ (race.answered ++ [i]) := by simp
        _ ~ race.running ++ ([i] ++ race.answered) := List.perm_append_comm.append_left _
        _ = (race.running ++ [i]) ++ race.answered := by simp
    · intro e lost
      rw [isOpen] at lost
      cases lost
  · cases went

/-- A contender that runs is among the answered ones afterwards. -/
theorem perm_answered {running answered : List Nat} (runs : i ∈ running) :
    (running.erase i ++ (answered ++ [i])).Perm (running ++ answered) := by
  calc running.erase i ++ (answered ++ [i])
      ~ running.erase i ++ ([i] ++ answered) := List.perm_append_comm.append_left _
    _ = running.erase i ++ i :: answered := rfl
    _ ~ i :: (running.erase i ++ answered) := List.perm_middle
    _ = (i :: running.erase i) ++ answered := rfl
    _ ~ running ++ answered := (List.perm_cons_erase runs).symm.append_right _

/-- Failing or winning, the contender is put at the end of those that have answered. -/
theorem answered_answer (went : race.answer i result = some race') :
    i ∈ race.running ∧ race'.answered = race.answered ++ [i] ∧
      race'.running = race.running.erase i ∧ race'.waiting = race.waiting ∧
        race'.started = race.started := by
  unfold Race.answer at went
  split at went
  · rename_i given
    obtain ⟨isOpen, runs⟩ := given
    rw [Option.isNone_iff_eq_none] at isOpen
    rw [answered_of_open isOpen]
    cases result with
    | ok a =>
        cases went
        exact ⟨runs, rfl, rfl, rfl, rfl⟩
    | error e =>
        cases went
        refine ⟨runs, ?_, rfl, rfl, rfl⟩
        simp [answered, isOpen]
  · cases went

theorem Sound.answer (sound : race.Sound n noContender)
    (went : race.answer i result = some race') : race'.Sound n noContender := by
  obtain ⟨runs, answered, running, waiting, started⟩ := answered_answer went
  refine ⟨?_, ?_, ?_, ?_⟩
  · rw [answered, running, waiting]
    exact ((perm_answered runs).append_left _).trans sound.places
  · rw [answered, running, started]
    exact sound.started.trans (perm_answered runs).symm
  · unfold Race.answer at went
    split at went
    · cases result with
      | ok a =>
          cases went
          exact sound.last
      | error e =>
          cases went
          simp
    · cases went
  · intro e lost
    unfold Race.answer at went
    split at went
    · rename_i given
      cases result with
      | ok a =>
          cases went
          cases lost
      | error e' =>
          cases went
          rw [Option.isNone_iff_eq_none.mp given.1] at lost
          cases lost
    · cases went

theorem Sound.close (sound : race.Sound n noContender)
    (went : race.close noContender = some race') : race'.Sound n noContender := by
  unfold Race.close at went
  split at went
  · rename_i given
    obtain ⟨isOpen, waiting, running⟩ := given
    rw [Option.isNone_iff_eq_none] at isOpen
    have before := answered_of_open isOpen
    cases went
    refine ⟨?_, ?_, sound.last, ?_⟩
    · have places := sound.places
      rw [before] at places
      simpa [answered] using places
    · have started := sound.started
      rw [before] at started
      simpa [answered] using started
    · intro e lost
      cases lost
      exact ⟨waiting, running, rfl⟩
  · cases went

/-! The answers of a race stay of a kind, when the new ones are. -/

section Answers

variable {P : Nat → Except ε α → Prop}

theorem answers_new (P : Nat → Except ε α → Prop) (n : Nat) : (new n).Answers P where
  won _ _ impossible := nomatch impossible
  failed _ member := absurd member List.not_mem_nil

theorem Answers.mono {Q : Nat → Except ε α → Prop} (answers : race.Answers P)
    (wider : ∀ i result, P i result → Q i result) : race.Answers Q :=
  ⟨fun i a won => wider i _ (answers.won i a won),
    fun f member => wider f.1 _ (answers.failed f member)⟩

theorem Answers.start (answers : race.Answers P) (went : race.start i = some race') :
    race'.Answers P := by
  unfold Race.start at went
  split at went
  · cases went
    exact ⟨answers.won, answers.failed⟩
  · cases went

theorem Answers.answer (answers : race.Answers P) (given : P i result)
    (went : race.answer i result = some race') : race'.Answers P := by
  unfold Race.answer at went
  split at went
  · cases result with
    | ok a =>
        cases went
        refine ⟨fun i' a' won => ?_, answers.failed⟩
        cases won
        exact given
    | error e =>
        cases went
        exact ⟨answers.won,
          List.forall_mem_append.mpr ⟨answers.failed, List.forall_mem_singleton.mpr given⟩⟩
  · cases went

theorem Answers.close (answers : race.Answers P) (went : race.close noContender = some race') :
    race'.Answers P := by
  unfold Race.close at went
  split at went
  · cases went
    exact ⟨fun _ _ impossible => (nomatch impossible), answers.failed⟩
  · cases went

end Answers

/-! An ended race has no step; only a start adds to the contenders that were started, and only
an answer to those that have answered. -/

theorem grown_start (went : race.start i = some race') :
    race.outcome = none ∧ race'.started = race.started ++ [i] ∧
      race'.answered = race.answered := by
  unfold Race.start at went
  split at went
  · rename_i given
    cases went
    exact ⟨Option.isNone_iff_eq_none.mp given.1, rfl, rfl⟩
  · cases went

theorem grown_answer (went : race.answer i result = some race') :
    race.outcome = none ∧ race'.started = race.started ∧
      race'.answered = race.answered ++ [i] := by
  obtain ⟨-, answered, -, -, started⟩ := answered_answer went
  refine ⟨?_, started, answered⟩
  unfold Race.answer at went
  split at went
  · rename_i given
    exact Option.isNone_iff_eq_none.mp given.1
  · cases went

theorem grown_close (went : race.close noContender = some race') :
    race.outcome = none ∧ race'.started = race.started ∧ race'.answered = race.answered := by
  unfold Race.close at went
  split at went
  · rename_i given
    have isOpen := Option.isNone_iff_eq_none.mp given.1
    cases went
    refine ⟨isOpen, rfl, ?_⟩
    rw [answered_of_open isOpen]
    simp [answered]
  · cases went

end Steps

/-! ## What the outcome tells -/

namespace Sound

variable {n : Nat} {noContender : ε} {race : Race α ε}

theorem nodup_started (sound : race.Sound n noContender) : race.started.Nodup := by
  have all := sound.places.nodup_iff.mpr List.nodup_range
  exact sound.started.nodup_iff.mpr (List.nodup_append.mp all).2.1

/-- No contender answers twice. -/
theorem nodup_answered (sound : race.Sound n noContender) : race.answered.Nodup := by
  have all := sound.places.nodup_iff.mpr List.nodup_range
  exact (List.nodup_append.mp (List.nodup_append.mp all).2.1).2.1

/-- In a lost race every contender was started and has failed, and the last failure is the
outcome. -/
theorem all_failed_of_lost (sound : race.Sound n noContender) {e : ε}
    (lost : race.outcome = some (.error e)) :
    (race.failed.map Prod.fst).Perm (List.range n) ∧ race.started.Perm (List.range n) ∧
      e = (race.failed.getLast?.map Prod.snd).getD noContender := by
  obtain ⟨waiting, running, same⟩ := sound.lost e lost
  have places := sound.places
  have started := sound.started
  have answered : race.answered = race.failed.map Prod.fst := by
    rw [Race.answered, lost, List.append_nil]
  rw [waiting, running, answered, List.nil_append, List.nil_append] at places
  rw [running, answered, List.nil_append] at started
  exact ⟨places, started.trans places, sound.last ▸ same⟩

end Sound

end Race

end Foundation
