import Mathlib.Logic.Relation
import Mathlib.Data.List.Chain

/-!
# The qps sampler samples at most once per period

`qpsSampler.Sampler` reads the clock, checks under the read lock whether the time `next` is zero or
passed, and if so checks again under the write lock and moves `next` to one period after its own
reading. Each locked section reads or writes `next` in one piece, so every call is a thread of
three atomic steps, and calls interleave in any order with any clock readings.

Times are nanoseconds since the zero `time.Time`, so `IsZero` is equality with `0`.
-/

namespace Luci.Server

/-- `t.IsZero()`. -/
def isZero (t : Int) : Bool := t = 0

/-- `t.After(u)`. -/
def after (t u : Int) : Bool := u < t

/-- The check made under each lock. -/
def shouldSample (next now : Int) : Bool := isZero next || after now next

inductive Call
  | start (parentSampled : Bool)
  | reading (now : Int)
  | locking (now : Int)
  | done (sample : Bool)
  deriving DecidableEq, Repr

/-- One step of a call: the return for a sampled parent, the clock reading, the read-locked check
or the write-locked check and update. It gives the call's next state, `next` after it, and the
reading the call sampled at when it moved `next`. -/
def Call.advance (period reading next : Int) : Call → Call × Int × Option Int
  | .start true => (.done true, next, none)
  | .start false => (.reading reading, next, none)
  | .reading now => (if shouldSample next now then .locking now else .done false, next, none)
  | .locking now =>
    if shouldSample next now then (.done true, now + period, some now)
    else (.done false, next, none)
  | .done sample => (.done sample, next, none)

structure Sys where
  next : Int
  calls : List Call
  sampled : List Int

inductive Step (period : Int) : Sys → Sys → Prop
  | step {s : Sys} {i : Nat} {c : Call} {reading : Int} :
      s.calls[i]? = some c → 0 < reading →
      Step period s
        (let r := c.advance period reading s.next
         ⟨r.2.1, s.calls.set i r.1, s.sampled ++ r.2.2.toList⟩)

def CallOk : Call → Prop
  | .reading now | .locking now => 0 < now
  | _ => True

def NextOk (period : Int) (sampled : List Int) (next : Int) : Prop :=
  match sampled.getLast? with
  | none => next = 0
  | some t => next = t + period

def Inv (period : Int) (s : Sys) : Prop :=
  (∀ c ∈ s.calls, CallOk c) ∧ (∀ t ∈ s.sampled, 0 < t) ∧
    s.sampled.Chain' (fun a b => a + period < b) ∧ NextOk period s.sampled s.next

variable {period : Int}

theorem Call.advance_spec {c : Call} {reading next : Int} (hc : CallOk c) (hr : 0 < reading) :
    CallOk (c.advance period reading next).1 ∧
      ((c.advance period reading next).2.2 = none ∧ (c.advance period reading next).2.1 = next ∨
        ∃ now, 0 < now ∧ shouldSample next now = true ∧
          (c.advance period reading next).2.2 = some now ∧
          (c.advance period reading next).2.1 = now + period) := by
  cases c with
  | start parentSampled =>
    cases parentSampled
    · exact ⟨hr, .inl ⟨rfl, rfl⟩⟩
    · exact ⟨trivial, .inl ⟨rfl, rfl⟩⟩
  | reading now =>
    refine ⟨?_, .inl ⟨rfl, rfl⟩⟩
    simp only [Call.advance]
    split
    · exact hc
    · trivial
  | locking now =>
    simp only [Call.advance]
    split
    · rename_i hs; exact ⟨trivial, .inr ⟨now, hc, hs, rfl, rfl⟩⟩
    · exact ⟨trivial, .inl ⟨rfl, rfl⟩⟩
  | done sample => exact ⟨trivial, .inl ⟨rfl, rfl⟩⟩

theorem NextOk.spaced (hp : 0 ≤ period) {sampled : List Int} {next now : Int}
    (hpos : ∀ t ∈ sampled, 0 < t) (hn : NextOk period sampled next)
    (hs : shouldSample next now = true) :
    ∀ t ∈ sampled.getLast?, t + period < now := by
  intro t ht
  rw [NextOk, Option.mem_def.mp ht] at hn
  have ht0 := hpos t (List.mem_of_getLast?_eq_some (Option.mem_def.mp ht))
  simp only [shouldSample, isZero, after, Bool.or_eq_true, decide_eq_true_eq] at hs
  omega

theorem Step.inv (hp : 0 ≤ period) {s s' : Sys} (h : Step period s s') (hi : Inv period s) :
    Inv period s' := by
  obtain ⟨hcalls, hpos, hchain, hnext⟩ := hi
  cases h with
  | @step i c reading hc hr =>
    obtain ⟨hok, hstep⟩ :=
      @Call.advance_spec period c reading s.next (hcalls c (List.getElem?_mem hc)) hr
    refine ⟨fun x hx => (List.mem_or_eq_of_mem_set hx).elim (hcalls x) (· ▸ hok), ?_⟩
    rcases hstep with ⟨hnone, hkeep⟩ | ⟨now, hnow, hs, hsome, hset⟩
    · simp only [hnone, hkeep, Option.toList_none, List.append_nil]
      exact ⟨hpos, hchain, hnext⟩
    · simp only [hsome, hset, Option.toList_some]
      refine ⟨fun t ht => ?_, List.chain'_append.mpr ⟨hchain, List.chain'_singleton _, ?_⟩, ?_⟩
      · rcases List.mem_append.mp ht with ht | ht
        · exact hpos t ht
        · rw [List.mem_singleton.mp ht]; exact hnow
      · intro t ht u hu
        obtain rfl := Option.some.inj (Option.mem_def.mp hu)
        exact NextOk.spaced hp hpos hnext hs t ht
      · simp only [NextOk, List.getLast?_concat]

theorem Step.inv_run (hp : 0 ≤ period) {s s' : Sys}
    (h : Relation.ReflTransGen (Step period) s s') (hi : Inv period s) : Inv period s' := by
  induction h with
  | refl => exact hi
  | tail _ hstep ih => exact hstep.inv hp ih

theorem sampled_spaced (period : Int) (hp : 0 ≤ period) {calls : List Call} {s' : Sys}
    (hcalls : ∀ c ∈ calls, ∃ parentSampled, c = .start parentSampled)
    (hrun : Relation.ReflTransGen (Step period) ⟨0, calls, []⟩ s') :
    s'.sampled.Pairwise (· < ·) ∧ s'.sampled.Chain' (fun a b => a + period < b) := by
  have hi : Inv period ⟨0, calls, []⟩ := by
    refine ⟨fun c hc => ?_, nofun, List.chain'_nil, rfl⟩
    obtain ⟨_, rfl⟩ := hcalls c hc
    trivial
  obtain ⟨-, -, hchain, -⟩ := Step.inv_run hp hrun hi
  exact ⟨List.chain'_iff_pairwise.mp (hchain.imp fun a b h => by omega), hchain⟩

def raceSampled : Sys := ⟨25, [.done true, .done false, .done true], [10, 20]⟩

theorem race_run :
    Relation.ReflTransGen (Step 5) ⟨0, [.start false, .start false, .start false], []⟩
      raceSampled :=
  .head (@Step.step _ _ 0 _ 10 rfl (by decide)) <|
    .head (@Step.step _ _ 1 _ 12 rfl (by decide)) <|
    .head (@Step.step _ _ 0 _ 10 rfl (by decide)) <|
    .head (@Step.step _ _ 1 _ 12 rfl (by decide)) <|
    .head (@Step.step _ _ 0 _ 10 rfl (by decide)) <|
    .head (@Step.step _ _ 1 _ 12 rfl (by decide)) <|
    .head (@Step.step _ _ 2 _ 20 rfl (by decide)) <|
    .head (@Step.step _ _ 2 _ 20 rfl (by decide)) <|
    .single (@Step.step _ _ 2 (.locking 20) 20 rfl (by decide))

theorem sampled_spaced_race :
    (∀ c ∈ [Call.start false, .start false, .start false], ∃ parentSampled,
      c = .start parentSampled) ∧
    raceSampled.sampled.Pairwise (· < ·) ∧ raceSampled.sampled.Chain' (fun a b => a + 5 < b) :=
  have hcalls : ∀ c ∈ [Call.start false, .start false, .start false], ∃ parentSampled,
      c = .start parentSampled := fun c hc => ⟨false, by simpa using hc⟩
  ⟨hcalls, sampled_spaced 5 (by decide) hcalls race_run⟩

end Luci.Server
