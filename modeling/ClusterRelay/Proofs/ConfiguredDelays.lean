import ClusterRelay.Proofs.Backoffs
import ClusterRelay.Proofs.Rounds
import ClusterRelay.Proofs.Service

/-!
# Configured delays are exact

Settings give a link's delay as a word of sixty-four bits, in milliseconds, and from there on it is
multiplied: by thirty for the cap, and after each poll by a factor of up to thirty-two bits. The
products of the second kind may well exceed the longest delay. None of it shows. The cap is thirty
times the delay, and thirty times the longest delay that can be configured is still far from the
longest there is; so the cap is exact, and a product that is cut off is longer than the cap anyway.
The factors get to thirty long before they run out of bits, which is all that `min_growth_iff` asks
for.

What a link waits for is not the delay but a moment of its clock. The clock counts whole
milliseconds, and configured delays are made of these and lie within its range, so a search that
is suspended after a poll sleeps for the delay and not a millisecond more or less: `Seek.Due`. That
holds for one step of a search, and it holds along every run of the link because the pacing is among
the terms that a run never changes.
-/

namespace ClusterRelay

/-! ## Multiples of the configured delay -/

namespace Backoff

/-- The delay after a poll, in multiples of the delay that is configured. -/
def multiple : Backoff → Nat → Nat
  | fixed, _ => 1
  | exponential, poll => min (2 ^ poll) 30

theorem multiple_zero (b : Backoff) : b.multiple 0 = 1 := by
  cases b <;> rfl

theorem multiple_mono (b : Backoff) {m n : Nat} (h : m ≤ n) : b.multiple m ≤ b.multiple n := by
  cases b with
  | fixed => exact Nat.le_refl 1
  | exponential =>
      have hpow : 2 ^ m ≤ 2 ^ n := Nat.pow_le_pow_right (by omega) h
      simp only [multiple]
      omega

theorem multiple_le (b : Backoff) (n : Nat) : b.multiple n ≤ 30 := by
  cases b with
  | fixed => exact (by decide : 1 ≤ 30)
  | exponential => exact Nat.min_le_right _ _

end Backoff

namespace Delay

theorem eq_of_nanos_eq {a b : Delay} (h : a.nanos = b.nanos) : a = b := congrArg Delay.mk h

theorem nanos_millis_mul (m k : Nat) : (millis (m * k)).nanos = (millis m).nanos * k :=
  Nat.mul_right_comm m k perMilli

end Delay

namespace LinkSettings

variable (s : LinkSettings)

/-- Thirty times any delay that can be configured is shorter than the longest delay, and a clock
can look ahead that far. -/
theorem thirtyfold_in_range :
    (Delay.millis (s.delayMillis.toNat * 30)).nanos < Delay.max.nanos ∧
      s.delayMillis.toNat * 30 < 1000 * Delay.clockRange := by
  have hword := s.delayMillis.toNat_lt
  have hmax : Delay.max.nanos = 18446744073709551615999999999 := by decide
  have hrange : 1000 * Delay.clockRange = 9223372036854775807000 := by decide
  rw [hmax, hrange]
  simp only [Delay.millis, Delay.perMilli]
  omega

/-- The cap of delays that double is not cut off. -/
theorem cap_exact :
    (Delay.millis s.delayMillis.toNat).times Schedule.capFactor =
      .millis (s.delayMillis.toNat * 30) := by
  have hbelow := Nat.le_of_lt s.thirtyfold_in_range.1
  rw [Delay.nanos_millis_mul] at hbelow
  refine Delay.eq_of_nanos_eq ?_
  rw [Delay.nanos_millis_mul]
  exact Nat.min_eq_left hbelow

theorem pollDelay_exact (n : Nat) :
    s.schedule.pollDelay n = .millis (s.delayMillis.toNat * s.backoff.multiple n) := by
  unfold schedule Schedule.ofSettings
  cases s.backoff with
  | fixed =>
      rw [Backoff.multiple, Nat.mul_one]
      rfl
  | exponential =>
      -- Thirty times the base is within reach of the factors, whatever the base is.
      have hspans : Schedule.Spans (.millis s.delayMillis.toNat)
          (.millis (s.delayMillis.toNat * 30)) := by
        refine .inr ?_
        rw [Delay.nanos_millis_mul]
        exact Nat.mul_le_mul_left _ (by decide)
      have hfactor := (Schedule.min_growth_iff _ _ n).mpr (.inr hspans)
      dsimp only
      rw [s.cap_exact]
      refine Delay.eq_of_nanos_eq ?_
      rw [Schedule.nanos_pollDelay _ (Nat.le_of_lt s.thirtyfold_in_range.1), hfactor,
        Delay.nanos_millis_mul, Nat.mul_min_mul_left, Delay.nanos_millis_mul]
      rfl

theorem rotateDelay_exact : s.schedule.rotateDelay = .millis s.delayMillis.toNat := by
  unfold schedule Schedule.ofSettings
  cases s.backoff <;> rfl

theorem attempts_exact : s.schedule.attempts = s.attempts.toNat := by
  unfold schedule Schedule.ofSettings
  cases s.backoff <;> rfl

/-- A clock waits for as many milliseconds as a delay has, up to thirty times the configured
delay. -/
theorem wait_exact {m : Nat} (h : m ≤ s.delayMillis.toNat * 30) : (Delay.millis m).wait = m := by
  have hrange := s.thirtyfold_in_range.2
  have hwhole : (Delay.millis m).wait * Delay.perMilli = m * Delay.perMilli :=
    Rehearsal.wait_millis (by omega)
  exact Nat.eq_of_mul_eq_mul_right (by decide : 0 < Delay.perMilli) hwhole

end LinkSettings

/-! ## What a search sleeps for -/

/-- A search that is suspended now sleeps for so many milliseconds after a poll, and for so many
after a visit in vain. -/
def Seek.Due (pollMillis : Nat → Nat) (restMillis now : Nat) : Seek → Prop
  | .pausing v wake => wake = now + pollMillis v.poll
  | .resting wake => wake = now + restMillis
  | _ => True

/-- The pacing answers every question about delays, and a clock waits that long for them. -/
structure Pacing.Waits (pacing : Pacing) (pollMillis : Nat → Nat) (restMillis : Nat) : Prop where
  poll : ∀ n, ∃ delay, pacing.pollDelay n = .ok delay ∧ delay.wait = pollMillis n
  rest : ∃ delay, pacing.rotateDelay = .ok delay ∧ delay.wait = restMillis

theorem LinkSettings.waits_pacing (s : LinkSettings) :
    s.schedule.pacing.Waits (fun n => s.delayMillis.toNat * s.backoff.multiple n)
      s.delayMillis.toNat := by
  refine ⟨fun n => ⟨_, rfl, ?_⟩, ⟨_, rfl, ?_⟩⟩
  · have hmultiple := Nat.mul_le_mul_left s.delayMillis.toNat (s.backoff.multiple_le n)
    rw [s.pollDelay_exact n]
    exact s.wait_exact (by omega)
  · rw [s.rotateDelay_exact]
    exact s.wait_exact (by omega)

namespace Failover

variable {f f' : Failover} {c : Counters} {now : Nat} {a : Answers} {pollMillis : Nat → Nat}
  {restMillis : Nat} {place next : Seek}

theorem Steps.due (h : f.Steps now place f' next) (hwaits : f.pacing.Waits pollMillis restMillis) :
    next = place ∨ next.Due pollMillis restMillis now := by
  cases h with
  | asleep => exact .inl rfl
  | paused _ hdelay =>
      obtain ⟨delay, hanswer, hwait⟩ := hwaits.poll _
      rw [hanswer] at hdelay
      cases hdelay
      exact .inr (congrArg (now + ·) hwait)
  | rested _ hdelay =>
      obtain ⟨delay, hanswer, hwait⟩ := hwaits.rest
      rw [hanswer] at hdelay
      cases hdelay
      exact .inr (congrArg (now + ·) hwait)
  | unused | retired | dropped | begun | dialed | dead | lapsed | again | turned =>
      exact .inr trivial

/-- Wherever a step takes a search it is due in time, unless it was asleep and sleeps on. -/
theorem due_step (h : f.pacing.Waits pollMillis restMillis)
    (hnext : (f.step c now a place).progress = .seeking next) :
    next = place ∨ next.Due pollMillis restMillis now :=
  (step_follows f c now a place next hnext).due h

end Failover

namespace Forwarder

variable {w : Forwarder} {a : Answers} {p : Parcel} {pollMillis : Nat → Nat} {restMillis : Nat}
  {next : Seek}

/-- What is done about a crash is no search. -/
theorem phase_caught_ne_seeking {handled : Forwarder × List Note}
    (h : handled.1.phase ≠ .seeking p next) : (w.caught a handled).1.phase ≠ .seeking p next := by
  rcases w.caught_cases a handled with hcaught | ⟨crash, hcaught⟩
  · rw [hcaught]
    exact h
  · rw [hcaught]
    nofun

/-- When the forwarder has worked its search is due in time, unless it was asleep and sleeps on. -/
theorem due_work (h : w.failover.pacing.Waits pollMillis restMillis)
    (hnext : (w.work a).1.phase = .seeking p next) :
    w.phase = .seeking p next ∨ next.Due pollMillis restMillis w.now := by
  -- Where the signal to stop is heeded the search is over.
  have hfinish : w.finish.1.phase ≠ .seeking p next := by
    intro hphase
    have hended := stance_finish w
    rw [hphase] at hended
    cases hended
  cases hphase : w.phase with
  | idle =>
      simp only [work, hphase] at hnext
      cases hnext
  | choosing =>
      refine .inr ?_
      simp only [work, hphase, choose] at hnext
      split at hnext
      · exact absurd hnext hfinish
      · split at hnext
        · cases hnext
          trivial
        · cases hnext
  | waiting =>
      refine .inr ?_
      simp only [work, hphase, await] at hnext
      split at hnext
      · exact absurd hnext hfinish
      · split at hnext
        · cases hnext
          trivial
        · rw [hphase] at hnext
          cases hnext
  | seeking p' place =>
      simp only [work, hphase, seek] at hnext
      split at hnext
      · exact absurd hnext hfinish
      · have hdue (place' : Seek)
            (h' : (w.failover.step w.counters w.now a place).progress = .seeking place') :
            place' = place ∨ place'.Due pollMillis restMillis w.now := Failover.due_step h h'
        generalize w.failover.step w.counters w.now a place = turn at hnext hdue
        obtain ⟨failover, counters, progress, notes⟩ := turn
        cases progress with
        | seeking place' =>
            cases hnext
            rcases hdue next rfl with hasleep | hawake
            · exact .inl (congrArg (Phase.seeking p) hasleep.symm)
            · exact .inr hawake
        | found conn => cases hnext
        | broken crash => cases hnext
  | submitting p' conn =>
      simp only [work, hphase, submit] at hnext
      split at hnext
      · cases hnext
      · split at hnext
        · cases hnext
        · cases hnext
        · exact absurd hnext (phase_caught_ne_seeking fun hseeks => by cases hseeks)
  | confirming p' conn =>
      simp only [work, hphase, confirm] at hnext
      split at hnext
      · cases hnext
      · cases hnext
      · exact absurd hnext (phase_caught_ne_seeking fun hseeks => by cases hseeks)
  | closing conn =>
      simp only [work, hphase, close] at hnext
      cases hnext
  | ended how =>
      simp only [work, hphase] at hnext
      cases hnext

end Forwarder

namespace Link

variable {s : LinkSettings} {port : UInt16} {capacity : Nat} {l : Link}

theorem eq_made_of_ofSettings (h : ofSettings s port capacity = .done l) :
    l = made s port capacity := by
  by_cases hfits : Backlog.Fits capacity
  · by_cases htargets : s.targets = []
    · unfold ofSettings Failover.start at h
      rw [Backlog.allocate_of_fits hfits, if_pos htargets] at h
      cases h
    · rw [ofSettings_eq_made hfits htargets] at h
      cases h
      rfl
  · rw [ofSettings_of_not_fits hfits] at h
    cases h

/-- A link keeps the pacing of its settings, whatever happens to it. -/
theorem pacing_run (h : ofSettings s port capacity = .done l) (es : List LinkEvent) :
    (l.run es).1.forwarder.failover.pacing = s.schedule.pacing := by
  have hcycle : s.targets ++ [] ~r s.targets := by rw [List.append_nil]
  have hserves : (made s port capacity).forwarder.Serves s port :=
    ⟨rfl, rfl, rfl, fun _ => hcycle, nofun, nofun⟩
  rw [eq_made_of_ofSettings h]
  exact (serves_run hserves es).pacing

end Link

/-- The schedule that a link's settings ask for delays by the configured number of milliseconds,
and after a poll by that number or, if delays double, by that number times a power of two or times
thirty; nothing is cut off. So the first delay does not depend on the way in which delays develop,
the delays never get shorter, and none is longer than thirty times the first. Whatever has happened
to a link with these settings: when it is suspended after a poll or after a visit in vain, it is
for just these milliseconds. -/
theorem configured_delays_exact (s : LinkSettings) :
    let d := s.delayMillis.toNat
    let delay := s.schedule.pollDelay
    s.schedule.attempts = s.attempts.toNat ∧
    s.schedule.rotateDelay = .millis d ∧
    (∀ n, delay n = .millis (d * s.backoff.multiple n)) ∧
    (∀ b : Backoff, { s with backoff := b }.schedule.pollDelay 0 = delay 0) ∧
    (∀ m n, m ≤ n → (delay m).nanos ≤ (delay n).nanos) ∧
    (∀ n, (Delay.millis d).nanos ≤ (delay n).nanos ∧
      (delay n).nanos ≤ (Delay.millis (d * 30)).nanos) ∧
    (Delay.millis (d * 30)).nanos < Delay.max.nanos ∧
    ∀ port capacity l, Link.ofSettings s port capacity = .done l → ∀ es a p next,
      let w := (l.run es).1.forwarder
      (w.work a).1.phase = .seeking p next →
        w.phase = .seeking p next ∨ next.Due (fun n => d * s.backoff.multiple n) d w.now := by
  intro d delay
  have hexact (n : Nat) : delay n = .millis (d * s.backoff.multiple n) := s.pollDelay_exact n
  have hfirst (b : Backoff) : { s with backoff := b }.schedule.pollDelay 0 = .millis d := by
    rw [LinkSettings.pollDelay_exact, Backoff.multiple_zero, Nat.mul_one]
  have hmono (m n : Nat) (h : m ≤ n) : (delay m).nanos ≤ (delay n).nanos := by
    rw [hexact, hexact, Delay.nanos_millis_mul, Delay.nanos_millis_mul]
    exact Nat.mul_le_mul_left _ (s.backoff.multiple_mono h)
  refine ⟨s.attempts_exact, s.rotateDelay_exact, hexact, ?_, hmono, ?_,
    s.thirtyfold_in_range.1, ?_⟩
  · intro b
    exact (hfirst b).trans (hfirst s.backoff).symm
  · intro n
    constructor
    · have hzero : delay 0 = .millis d := hfirst s.backoff
      exact hzero ▸ hmono 0 n (Nat.zero_le n)
    · rw [hexact, Delay.nanos_millis_mul, Delay.nanos_millis_mul]
      exact Nat.mul_le_mul_left _ (s.backoff.multiple_le n)
  · intro port capacity l hl es a p next w hnext
    have hwaits : w.failover.pacing.Waits (fun n => d * s.backoff.multiple n) d := by
      rw [Link.pacing_run hl es]
      exact s.waits_pacing
    exact Forwarder.due_work hwaits hnext

/-- With the longest delay that can be configured, the product after the thirty-second poll is cut
off at the longest delay there is. The delay is not, and after its sixth poll a target that brings
no connection is left alone for thirty times the configured delay. -/
theorem configured_delays_exact_longest :
    let s : LinkSettings :=
      ⟨"tokyo", ⟨"tokyo", "pass"⟩, ["t1"], 10, 18446744073709551615, .exponential⟩
    let d := 18446744073709551615
    let parcel : Parcel := ⟨0, ⟨"orders", "k".toUTF8, "v".toUTF8⟩⟩
    let sixth : Visit := ⟨"t1", ⟨"t1", 5701⟩, 10, 5⟩
    let work : LinkEvent := .forwarder (.work {})
    let polls := (List.range 5).flatMap fun n =>
      [work, .forwarder (.elapse (d * (2 ^ (n + 1) - 1))), work]
    let es := [.forwarder .start, .offer parcel.mutation, work, work, work, work] ++ polls
    (Delay.millis d).times (Schedule.growth 31) = Delay.max ∧
      s.schedule.pollDelay 31 = .millis (d * 30) ∧
      ∃ l, Link.ofSettings s 5701 100 = .done l ∧
        let w := (l.run es).1.forwarder
        (w.work {}).1.phase = .seeking parcel (.pausing sixth (d * 61)) ∧
          d * 61 = w.now + d * 30 := by
  intro s d parcel sixth work polls es
  obtain ⟨-, -, hexact, -, -, -, -, hdue⟩ := configured_delays_exact s
  have hpausing : (((Link.made s 5701 100).run es).1.forwarder.work {}).1.phase =
      .seeking parcel (.pausing sixth (d * 61)) := by decide +kernel
  refine ⟨by decide +kernel, hexact 31, Link.made s 5701 100, rfl, hpausing, ?_⟩
  rcases hdue 5701 100 _ rfl es {} _ _ hpausing with hasleep | hawake
  · exact absurd hasleep (by decide +kernel)
  · exact hawake

end ClusterRelay
