import ClusterRelay.Failover

/-!
# What one step of a search can do

A search has nine places to stand in and a network that may answer anything, so
`Failover.step` has some thirty ways to go. Four of them matter to whoever asks what
became of the targets: a live connection in use is confirmed, a dead one is retired, a
new one is settled on, and the rotation turns after a visit in vain. All the others keep
the targets, the connection in use and the books exactly as they were; `Shift` says so,
and everything that is proved about a link's targets and connections is read off it.

Where a search that goes on has come to is told by `Steps`, and this is the one place where
the pieces of a step are opened to find it out. The one thing a step has to know to be harmless
is that the target it visits is the one at the head of the rotation, because a visit names its
target at the beginning and takes it out of the rotation only at the end. `Placed` is that
agreement between a search and the targets, and `step_leads` says that a step never leaves it.
-/

namespace ClusterRelay

/-- The note is about a parcel, or about a frame that was submitted for one. -/
def Note.ofParcel : Note → Bool
  | .submitted _ _ _ | .admitted _ | .evicted _ | .attempted _ _ => true
  | _ => false

/-- What a link's counters say about the fate of parcels. -/
def Counters.books (c : Counters) : UInt64 × UInt64 × UInt64 × Bool :=
  (c.sent, c.faults, c.retryDepth, c.inFlight)

def Seek.visit? : Seek → Option Visit
  | .dialing v | .probing v _ | .discarding v _ | .lapsing v _ _ | .pausing v _ => some v
  | _ => none

/-- The targets agree with where a search stands: once it is past the connection in use
there is none, and the target being visited is at the head of the rotation. -/
structure Failover.Placed (f : Failover) (s : Seek) : Prop where
  unused : s ≠ .verifying → f.active = none
  head : ∀ v, s.visit? = some v → f.rotation.head? = some v.target

/-- A turn that brings no connection and changes neither the targets nor the books. -/
structure Turn.Keeps (t : Turn) (f : Failover) (c : Counters) : Prop where
  failover : t.failover = f
  activeTarget : t.counters.activeTarget = c.activeTarget
  books : t.counters.books = c.books
  unfound : ∀ conn, t.progress ≠ .found conn
  quiet : ∀ n ∈ t.notes, n.ofParcel = false

/-- The ways in which a search goes on: where it stands before and after a step, and what becomes
of the targets and the connection in use. -/
inductive Failover.Steps (f : Failover) (now : Nat) : Seek → Failover → Seek → Prop where
  | asleep {s : Seek} {wake : Nat} (hwake : s.wake? = some wake) (hearly : now < wake) :
      Steps f now s f s
  | unused (hactive : f.active = none) : Steps f now .verifying f .visiting
  | retired {target : String} {conn : ConnId} (hactive : f.active = some (target, conn)) :
      Steps f now .verifying { f with active := none, rotation := f.rotation ++ [target] }
        (.dropping conn)
  | dropped {conn : ConnId} : Steps f now (.dropping conn) f .visiting
  | begun {v : Visit} (hhead : f.rotation.head? = some v.target)
      (hparse : Endpoint.ofTarget v.target f.port = .ok v.endpoint)
      (hattempts : f.pacing.attempts = .ok v.attempts) (hfirst : v.poll = 0) :
      Steps f now .visiting f (.dialing v)
  | dialed {v : Visit} {conn : ConnId} : Steps f now (.dialing v) f (.probing v conn)
  | dead {v : Visit} {conn : ConnId} : Steps f now (.probing v conn) f (.discarding v conn)
  | lapsed {v : Visit} {conn : ConnId} {crash : Crash} :
      Steps f now (.probing v conn) f (.lapsing v conn crash)
  | paused {s : Seek} {v : Visit} {delay : Delay} (hvisit : s.visit? = some v)
      (hdelay : f.pacing.pollDelay v.poll = .ok delay) :
      Steps f now s f (.pausing v (now + delay.wait))
  | again {v : Visit} {wake : Nat} (hdue : wake ≤ now) (hmore : v.poll + 1 < v.attempts) :
      Steps f now (.pausing v wake) f (.dialing { v with poll := v.poll + 1 })
  | rested {s : Seek} {delay : Delay} (hs : s ≠ .verifying)
      (hdelay : f.pacing.rotateDelay = .ok delay) : Steps f now s f (.resting (now + delay.wait))
  | turned {wake : Nat} (hdue : wake ≤ now) : Steps f now (.resting wake) f.rotated .visiting

/-- If the search goes on after a turn, it does so in one of the ways that it has. -/
def Turn.Follows (t : Turn) (f : Failover) (now : Nat) (s : Seek) : Prop :=
  ∀ next, t.progress = .seeking next → f.Steps now s t.failover next

/-- Wherever the search goes on after a turn, the targets agree with it. -/
def Turn.Leads (t : Turn) : Prop :=
  ∀ next, t.progress = .seeking next → t.failover.Placed next

namespace Failover

variable {f f' : Failover} {c : Counters} {now : Nat} {notes : List Note} {s next : Seek}

/-- Every place that is past the connection in use and in the middle of no visit. -/
theorem placed_between {s : Seek} (h : f.active = none) (hs : s.visit? = none) :
    f.Placed s :=
  ⟨fun _ => h, fun v hv => by rw [hs] at hv; cases hv⟩

theorem placed_verifying : f.Placed .verifying :=
  ⟨fun h => absurd rfl h, fun _ hv => by cases hv⟩

/-- Every place in the middle of a visit to the target at the head. -/
theorem placed_within {s : Seek} {v : Visit} (h : f.active = none)
    (hhead : f.rotation.head? = some v.target) (hs : s.visit? = some v) : f.Placed s :=
  ⟨fun _ => h, fun v' hv => by rw [hs] at hv; cases hv; exact hhead⟩

/-! ## The pieces of a step

Whatever is still to be tried, a visit ends in one of a few ways, and each of them is a
delay or a crash that nobody catches. -/

theorem rest_keeps (hn : ∀ n ∈ notes, n.ofParcel = false) :
    (f.rest c now notes).Keeps f c := by
  unfold rest
  split
  · exact ⟨rfl, rfl, rfl, nofun, hn⟩
  · exact ⟨rfl, rfl, rfl, nofun, hn⟩

theorem rest_follows (hs : s ≠ .verifying) : (f.rest c now notes).Follows f now s := by
  unfold rest
  split
  · exact nofun
  · next delay hdelay =>
      rintro next ⟨⟩
      exact .rested hs hdelay

theorem quiet_concat_logged {line : LogLine} (hn : ∀ n ∈ notes, n.ofParcel = false) :
    ∀ n ∈ notes ++ [.logged line], n.ofParcel = false := by
  intro n hmem
  rcases List.mem_append.mp hmem with h | h
  · exact hn n h
  · rw [List.mem_singleton.mp h]; rfl

theorem keeps_of_countConnectFailure {t : Turn}
    (h : t.Keeps f c.countConnectFailure) : t.Keeps f c :=
  ⟨h.failover, h.activeTarget, h.books, h.unfound, h.quiet⟩

theorem failed_keeps {target : String} {fault : Fault}
    (hn : ∀ n ∈ notes, n.ofParcel = false) :
    (f.failed c now notes target fault).Keeps f c :=
  keeps_of_countConnectFailure (rest_keeps (quiet_concat_logged hn))

theorem exhausted_keeps {target : String} (hn : ∀ n ∈ notes, n.ofParcel = false) :
    (f.exhausted c now notes target).Keeps f c := by
  apply keeps_of_countConnectFailure
  rcases f.exhausted_cases c now notes target with ⟨text, hexhausted⟩ | ⟨crash, hexhausted⟩
  · rw [hexhausted]
    exact rest_keeps (quiet_concat_logged hn)
  · rw [hexhausted]
    exact ⟨rfl, rfl, rfl, nofun, hn⟩

theorem exhausted_follows {target : String} (hs : s ≠ .verifying) :
    (f.exhausted c now notes target).Follows f now s := by
  rcases f.exhausted_cases c now notes target with ⟨text, hexhausted⟩ | ⟨crash, hexhausted⟩
  · rw [hexhausted]
    exact rest_follows hs
  · rw [hexhausted]
    exact nofun

theorem caught_keeps {a : Answers} {next : Turn} (hn : ∀ n ∈ notes, n.ofParcel = false)
    (h : next.Keeps f c) : (f.caught c a notes next).Keeps f c := by
  rcases f.caught_cases c a notes next with hcaught | ⟨crash, hcaught⟩
  · rw [hcaught]
    exact h
  · rw [hcaught]
    exact ⟨rfl, rfl, rfl, nofun, hn⟩

theorem caught_follows {a : Answers} {next : Turn} (h : next.Follows f now s) :
    (f.caught c a notes next).Follows f now s := by
  rcases f.caught_cases c a notes next with hcaught | ⟨crash, hcaught⟩
  · rw [hcaught]
    exact h
  · rw [hcaught]
    exact nofun

theorem nextPoll_keeps {v : Visit} (hn : ∀ n ∈ notes, n.ofParcel = false) :
    (f.nextPoll c now notes v).Keeps f c := by
  unfold nextPoll
  split
  · exact ⟨rfl, rfl, rfl, nofun, hn⟩
  · exact exhausted_keeps hn

theorem nextPoll_follows {v : Visit} {wake : Nat} (hdue : wake ≤ now) :
    (f.nextPoll c now notes v).Follows f now (.pausing v wake) := by
  unfold nextPoll
  split
  · next hmore =>
      rintro next ⟨⟩
      exact .again hdue hmore
  · exact exhausted_follows nofun

theorem pause_keeps {v : Visit} (hn : ∀ n ∈ notes, n.ofParcel = false) :
    (f.pause c now notes v).Keeps f c := by
  unfold pause
  split
  · exact ⟨rfl, rfl, rfl, nofun, hn⟩
  · exact ⟨rfl, rfl, rfl, nofun, hn⟩

theorem pause_follows {v : Visit} (hvisit : s.visit? = some v) :
    (f.pause c now notes v).Follows f now s := by
  unfold pause
  split
  · exact nofun
  · next delay hdelay =>
      rintro next ⟨⟩
      exact .paused hvisit hdelay

theorem visit_keeps : (f.visit c now).Keeps f c := by
  unfold visit
  split
  · exact rest_keeps nofun
  · split
    · exact failed_keeps nofun
    · split
      · exact ⟨rfl, rfl, rfl, nofun, nofun⟩
      · exact exhausted_keeps nofun
      · exact ⟨rfl, rfl, rfl, nofun, nofun⟩

theorem visit_follows : (f.visit c now).Follows f now .visiting := by
  unfold visit
  split
  · exact rest_follows nofun
  · next target others hrotation =>
      split
      · exact rest_follows nofun
      · next endpoint hparse =>
          split
          · exact nofun
          · exact exhausted_follows nofun
          · next attempts _ hattempts =>
              rintro next ⟨⟩
              exact .begun (by rw [hrotation]; rfl) hparse hattempts rfl

/-! ## The step as a whole -/

/-- What a step of a search does to the targets, to the connection in use and to the
books, with the answers it was given. -/
inductive Shift (f : Failover) (c : Counters) (a : Answers) : Seek → Turn → Prop where
  | kept {s : Seek} {t : Turn} (keeps : t.Keeps f c) : Shift f c a s t
  | confirmed {target : String} {conn : ConnId} (hactive : f.active = some (target, conn))
      (hlive : a.probe = .ok true) :
      Shift f c a .verifying ⟨f, c, .found conn, [.probed conn a.probe]⟩
  | retired {target : String} {conn : ConnId} {notes : List Note}
      (hactive : f.active = some (target, conn)) (hdead : a.probe ≠ .ok true)
      (hprobed : .probed conn a.probe ∈ notes) (hquiet : ∀ n ∈ notes, n.ofParcel = false) :
      Shift f c a .verifying (f.retire c notes target conn)
  | settled {v : Visit} {conn : ConnId} (hlive : a.probe = .ok true) :
      Shift f c a (.probing v conn) (f.settle c [.probed conn a.probe] v.target conn)
  | rotated {wake : Nat} : Shift f c a (.resting wake) ⟨f.rotated, c, .seeking .visiting, []⟩

theorem quiet_call {n : Note} (hn : n.ofParcel = false) :
    ∀ m ∈ [n], m.ofParcel = false := by
  intro m hm
  rw [List.mem_singleton.mp hm]
  exact hn

theorem shift_step (f : Failover) (c : Counters) (now : Nat) (a : Answers) (s : Seek) :
    Shift f c a s (f.step c now a s) := by
  cases s with
  | verifying =>
      simp only [step]
      split
      · exact .kept ⟨rfl, rfl, rfl, nofun, nofun⟩
      · next target conn hactive =>
          split
          · next hlive => exact .confirmed hactive hlive
          · next hdead =>
              refine .retired hactive (by rw [hdead]; nofun) (List.mem_singleton.mpr rfl) ?_
              exact quiet_call rfl
          · next crash hcrash =>
              unfold caught
              split
              · refine .retired hactive (by rw [hcrash]; nofun) List.mem_cons_self ?_
                exact quiet_concat_logged (quiet_call rfl)
              · exact .kept ⟨rfl, rfl, rfl, nofun, quiet_call rfl⟩
  | dropping conn =>
      simp only [step]
      split
      · exact .kept ⟨rfl, rfl, rfl, nofun, quiet_call rfl⟩
      · exact .kept ⟨rfl, rfl, rfl, nofun, quiet_call rfl⟩
  | visiting => exact .kept visit_keeps
  | dialing v =>
      simp only [step]
      split
      · exact .kept (pause_keeps (quiet_call rfl))
      · exact .kept ⟨rfl, rfl, rfl, nofun, quiet_call rfl⟩
      · exact .kept (failed_keeps (quiet_call rfl))
      · exact .kept (caught_keeps (quiet_call rfl) (failed_keeps (quiet_call rfl)))
  | probing v conn =>
      simp only [step]
      split
      · next hlive => exact .settled hlive
      · exact .kept ⟨rfl, rfl, rfl, nofun, quiet_call rfl⟩
      · exact .kept ⟨rfl, rfl, rfl, nofun, quiet_call rfl⟩
  | discarding v conn =>
      simp only [step]
      split
      · exact .kept (pause_keeps (quiet_call rfl))
      · exact .kept (caught_keeps (quiet_call rfl) (failed_keeps (quiet_call rfl)))
  | lapsing v conn crash =>
      exact .kept (caught_keeps (quiet_call rfl) (failed_keeps (quiet_call rfl)))
  | pausing v wake =>
      simp only [step]
      split
      · exact .kept ⟨rfl, rfl, rfl, nofun, nofun⟩
      · exact .kept (nextPoll_keeps nofun)
  | resting wake =>
      simp only [step]
      split
      · exact .kept ⟨rfl, rfl, rfl, nofun, nofun⟩
      · exact .rotated

theorem step_follows (f : Failover) (c : Counters) (now : Nat) (a : Answers) (s : Seek) :
    (f.step c now a s).Follows f now s := by
  cases s with
  | verifying =>
      simp only [step]
      split
      · next hactive =>
          rintro next ⟨⟩
          exact .unused hactive
      · next target conn hactive =>
          split
          · exact nofun
          · rintro next ⟨⟩
            exact .retired hactive
          · apply caught_follows
            rintro next ⟨⟩
            exact .retired hactive
  | dropping conn =>
      simp only [step]
      split
      · rintro next ⟨⟩
        exact .dropped
      · exact nofun
  | visiting => exact visit_follows
  | dialing v =>
      simp only [step]
      split
      · exact pause_follows rfl
      · rintro next ⟨⟩
        exact .dialed
      · exact rest_follows nofun
      · exact caught_follows (rest_follows nofun)
  | probing v conn =>
      simp only [step]
      split
      · exact nofun
      · rintro next ⟨⟩
        exact .dead
      · rintro next ⟨⟩
        exact .lapsed
  | discarding v conn =>
      simp only [step]
      split
      · exact pause_follows rfl
      · exact caught_follows (rest_follows nofun)
  | lapsing v conn crash => exact caught_follows (rest_follows nofun)
  | pausing v wake =>
      simp only [step]
      split
      · next hearly =>
          rintro next ⟨⟩
          exact .asleep rfl hearly
      · next hdue => exact nextPoll_follows (Nat.le_of_not_lt hdue)
  | resting wake =>
      simp only [step]
      split
      · next hearly =>
          rintro next ⟨⟩
          exact .asleep rfl hearly
      · next hdue =>
          rintro next ⟨⟩
          exact .turned (Nat.le_of_not_lt hdue)

theorem Steps.placed (h : f.Steps now s f' next) (hplaced : f.Placed s) : f'.Placed next := by
  cases h with
  | asleep => exact hplaced
  | unused hactive => exact placed_between hactive rfl
  | retired => exact placed_between rfl rfl
  | dropped => exact placed_between (hplaced.unused nofun) rfl
  | begun hhead => exact placed_within (hplaced.unused nofun) hhead rfl
  | dialed => exact placed_within (hplaced.unused nofun) (hplaced.head _ rfl) rfl
  | dead => exact placed_within (hplaced.unused nofun) (hplaced.head _ rfl) rfl
  | lapsed => exact placed_within (hplaced.unused nofun) (hplaced.head _ rfl) rfl
  | paused hvisit =>
      have hs : s ≠ .verifying := by
        rintro rfl
        cases hvisit
      exact placed_within (hplaced.unused hs) (hplaced.head _ hvisit) rfl
  | @again v =>
      exact placed_within (v := { v with poll := v.poll + 1 }) (hplaced.unused nofun)
        (hplaced.head v rfl) rfl
  | rested hs => exact placed_between (hplaced.unused hs) rfl
  | turned =>
      refine placed_between ?_ rfl
      unfold rotated
      split
      · exact hplaced.unused nofun
      · exact hplaced.unused nofun

/-- A search never loses touch with the targets. -/
theorem step_leads {a : Answers} (h : f.Placed s) : (f.step c now a s).Leads :=
  fun next hnext => (step_follows f c now a s next hnext).placed h

end Failover

end ClusterRelay
