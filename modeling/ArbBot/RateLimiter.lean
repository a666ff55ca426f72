import ArbBot.Foundation.SlidingWindow

/-!
# The rate limiter

`try_acquire` prunes what it keeps and counts, at the instants of its calls only.
`Paced` relates what it keeps to all grants so far; `Paced.tryAcquire` is the one lemma
about a call, and `tryAcquire_rateLimited` follows the calls of a whole run.

Instants are nanoseconds since the origin of the clock.
-/

namespace ArbBot

open Foundation

/-- `Duration::from_secs(1)`. -/
def oneSecond : Nat := 1000000000

theorem lt_add_oneSecond (x : Nat) : x < x + oneSecond := by
  rw [oneSecond]
  omega

structure RateLimiter where
  maxPerSecond : UInt32
  timestamps : List Nat

namespace RateLimiter

def new (maxPerSecond : UInt32) : RateLimiter where
  maxPerSecond := maxPerSecond
  timestamps := []

/-- The calls of `try_acquire` less than a second after the origin panic. -/
def tryAcquire (limiter : RateLimiter) (now : Nat) : Option (Bool × RateLimiter) :=
  if now < oneSecond then none
  else
    let oneSecAgo := now - oneSecond
    let timestamps := limiter.timestamps.filter (· > oneSecAgo)
    -- `len() as u32`
    if UInt32.ofNat timestamps.length < limiter.maxPerSecond then
      some (true, { limiter with timestamps := timestamps ++ [now] })
    else some (false, { limiter with timestamps := timestamps })

/-- The limiter has given these grants, up to the instant `last`. -/
structure Paced (limiter : RateLimiter) (last : Nat) (grants : List Nat) : Prop where
  tracks : Tracks oneSecond last limiter.timestamps grants
  sparse : Sparse oneSecond limiter.maxPerSecond.toNat grants

theorem paced_new (maxPerSecond : UInt32) (last : Nat) : (new maxPerSecond).Paced last [] where
  tracks := tracks_nil _ _
  sparse := sparse_nil _ _

section Paced

variable {limiter limiter' : RateLimiter} {last now : Nat} {grants : List Nat} {granted : Bool}

theorem Paced.length_le (paced : limiter.Paced last grants) :
    limiter.timestamps.length ≤ limiter.maxPerSecond.toNat := by
  rw [paced.tracks.length]
  exact paced.sparse last

theorem Paced.later (paced : limiter.Paced last grants) (later : last ≤ now)
    (late : oneSecond ≤ now) :
    Tracks oneSecond now (limiter.timestamps.filter (· > now - oneSecond)) grants := by
  have same : (fun t => decide (t > now - oneSecond)) = fun t => decide (now < t + oneSecond) := by
    funext t
    rw [decide_eq_decide]
    omega
  rw [same]
  exact paced.tracks.prune later

/-- A call compares the grants of its window with the limit. -/
theorem Paced.tryAcquire_eq (paced : limiter.Paced last grants) (later : last ≤ now)
    (late : oneSecond ≤ now) :
    limiter.tryAcquire now =
      if windowCount oneSecond now grants < limiter.maxPerSecond.toNat then
        some (true, { limiter with
          timestamps := limiter.timestamps.filter (· > now - oneSecond) ++ [now] })
      else
        some (false, { limiter with
          timestamps := limiter.timestamps.filter (· > now - oneSecond) }) := by
  have small : (limiter.timestamps.filter (· > now - oneSecond)).length < 2 ^ 32 :=
    lt_of_le_of_lt (List.length_filter_le _ _)
      (lt_of_le_of_lt paced.length_le limiter.maxPerSecond.toNat_lt)
  have unwrapped : UInt32.ofNat (limiter.timestamps.filter (· > now - oneSecond)).length <
      limiter.maxPerSecond ↔ windowCount oneSecond now grants < limiter.maxPerSecond.toNat := by
    rw [UInt32.lt_iff_toNat_lt, UInt32.toNat_ofNat_of_lt' small, (paced.later later late).length]
  simp only [tryAcquire, if_neg (Nat.not_lt.mpr late), unwrapped]

/-- **One call.** It answers, its answer says whether the window that ends with it has
room, and what it keeps follows the grants. -/
theorem Paced.tryAcquire (paced : limiter.Paced last grants) (later : last ≤ now)
    (late : oneSecond ≤ now) :
    ∃ granted limiter', limiter.tryAcquire now = some (granted, limiter') ∧
      limiter'.maxPerSecond = limiter.maxPerSecond ∧
      limiter'.Paced now (if granted then grants ++ [now] else grants) ∧
      (granted = false ↔
        windowCount oneSecond now grants = limiter.maxPerSecond.toNat) := by
  have tracks := paced.later later late
  have most := paced.sparse now
  rw [paced.tryAcquire_eq later late]
  by_cases room : windowCount oneSecond now grants < limiter.maxPerSecond.toNat
  · refine ⟨true, _, if_pos room, rfl, ⟨?_, ?_⟩, ?_⟩
    · exact tracks.snoc (lt_add_oneSecond now)
    · exact paced.sparse.snoc tracks.past room
    · exact iff_of_false (by simp) (Nat.ne_of_lt room)
  · refine ⟨false, _, if_neg room, rfl, ⟨tracks, paced.sparse⟩, ?_⟩
    exact iff_of_true rfl (by omega)

end Paced

/-! ## Runs of calls -/

/-- The limiter after calls at the given instants, and their answers. -/
def calls (maxPerSecond : UInt32) (nows : List Nat) :
    Option (RateLimiter × List (Nat × Bool)) :=
  nows.foldlM (fun (limiter, answers) now => do
    let (granted, limiter) ← limiter.tryAcquire now
    return (limiter, answers ++ [(now, granted)])) (new maxPerSecond, [])

/-- The instants of the granted calls. -/
def grantsOf (answers : List (Nat × Bool)) : List Nat :=
  (answers.filter Prod.snd).map Prod.fst

theorem grantsOf_snoc (answers : List (Nat × Bool)) (now : Nat) (granted : Bool) :
    grantsOf (answers ++ [(now, granted)]) =
      if granted then grantsOf answers ++ [now] else grantsOf answers := by
  cases granted <;> simp [grantsOf]

/-- Each answer is a refusal just when as many calls as allowed were granted before it in
the second that ends with it. -/
def Justified (maxPerSecond : UInt32) (answers : List (Nat × Bool)) : Prop :=
  ∀ earlier now granted later, answers = earlier ++ (now, granted) :: later →
    (granted = false ↔
      windowCount oneSecond now (grantsOf earlier) = maxPerSecond.toNat)

theorem Justified.snoc {maxPerSecond : UInt32} {answers : List (Nat × Bool)} {now : Nat}
    {granted : Bool} (before : Justified maxPerSecond answers)
    (last : granted = false ↔
      windowCount oneSecond now (grantsOf answers) = maxPerSecond.toNat) :
    Justified maxPerSecond (answers ++ [(now, granted)]) := by
  intro earlier now' granted' later split
  rcases later.eq_nil_or_concat with rfl | ⟨rest, final, rfl⟩
  · rcases List.append_inj' split rfl with ⟨rfl, same⟩
    cases same
    exact last
  · rw [List.concat_eq_append, ← List.cons_append, ← List.append_assoc] at split
    exact before earlier now' granted' rest (List.append_inj' split rfl).1

/-- **The rate limit.** Calls at nondecreasing instants, none less than a second after the
origin of the clock, are all answered. No second holds more grants than allowed, no more
timestamps than that are kept, and a call is refused only when its second is full. -/
theorem tryAcquire_rateLimited (maxPerSecond : UInt32) {nows : List Nat}
    (ordered : nows.Pairwise (· ≤ ·)) (late : ∀ now ∈ nows, oneSecond ≤ now) :
    ∃ limiter answers, calls maxPerSecond nows = some (limiter, answers) ∧
      answers.map Prod.fst = nows ∧
      limiter.timestamps.length ≤ maxPerSecond.toNat ∧
      Sparse oneSecond maxPerSecond.toNat (grantsOf answers) ∧
      Justified maxPerSecond answers := by
  have run : ∃ limiter answers last, calls maxPerSecond nows = some (limiter, answers) ∧
      answers.map Prod.fst = nows ∧ (∀ now, (∀ x ∈ nows, x ≤ now) → last ≤ now) ∧
      limiter.maxPerSecond = maxPerSecond ∧ limiter.Paced last (grantsOf answers) ∧
      Justified maxPerSecond answers := by
    induction nows using List.reverseRecOn with
    | nil =>
        refine ⟨_, _, 0, rfl, rfl, fun now _ => Nat.zero_le now, rfl, paced_new _ _, ?_⟩
        intro earlier now granted later split
        simp at split
    | append_singleton nows now ih =>
        rw [List.pairwise_append] at ordered
        have past : ∀ x ∈ nows, x ≤ now := fun x member =>
          ordered.2.2 x member now (List.mem_singleton_self _)
        rcases ih ordered.1 fun x member => late x (List.mem_append_left _ member) with
          ⟨limiter, answers, last, ran, instants, latest, rfl, paced, justified⟩
        rcases paced.tryAcquire (latest now past)
          (late now (List.mem_append_right _ (List.mem_singleton_self _))) with
          ⟨granted, limiter', answered, same, paced', refused⟩
        refine ⟨limiter', answers ++ [(now, granted)], now, ?_, ?_, ?_, same, ?_, ?_⟩
        · rw [calls] at ran ⊢
          rw [List.foldlM_append, ran]
          simp [answered]
        · rw [List.map_append, instants]
          rfl
        · exact fun _ bound => bound now (List.mem_append_right _ (List.mem_singleton_self _))
        · rw [grantsOf_snoc]
          exact paced'
        · exact justified.snoc refused
  rcases run with ⟨limiter, answers, last, ran, instants, -, rfl, paced, justified⟩
  exact ⟨limiter, answers, ran, instants, paced.length_le, paced.sparse, justified⟩

/-- Three calls with one slot a second: the last one finds the slot free again. -/
theorem tryAcquire_rateLimited_one :
    ∃ limiter answers, calls 1 [1000000000, 1500000000, 2000000000] = some (limiter, answers) ∧
      answers.map Prod.fst = [1000000000, 1500000000, 2000000000] ∧
      limiter.timestamps.length ≤ (1 : UInt32).toNat ∧
      Sparse oneSecond (1 : UInt32).toNat (grantsOf answers) ∧ Justified 1 answers :=
  tryAcquire_rateLimited 1 (by simp) (by simp [oneSecond])

end RateLimiter

end ArbBot
