import ClusterRelay.Rehearsal.Clock
import Mathlib.Data.List.Rotate

/-!
# Round-robin, to the poll

A search goes through the rotation again and again, and each visit may be cut short at any poll. So
what a visit costs, in calls and in time, differs from visit to visit, and the visit that brings a
connection may lie many rounds ahead. What does not differ is the account of it: the polls of the
visits in their order, one failure counted for each visit in vain, one delay after each poll that
was missed and one after each visit, and a rotation that has turned once for each of them.

The visits are told from the network's side, as relations between its states: `Polled` is a poll,
`Missed` the polls at the beginning of a visit, `Visited` a visit in vain, `Rounds` one such visit
after another. `Reaches` is the search's side: it gets from one place to another and dials certain
endpoints on the way. Every relation of the first kind has one lemma that makes it one of the
second kind, and the lemmas compose as the relations do.
-/

namespace ClusterRelay

/-- A pacing that answers every question, and the same question always in the same way. -/
structure Pace where
  attempts : Nat
  delay : Nat → Delay
  rest : Delay

namespace Pace

def pacing (r : Pace) : Pacing where
  attempts := .ok r.attempts
  pollDelay poll := .ok (r.delay poll)
  rotateDelay := .ok r.rest

/-- What the delays after the first so many polls of a visit add up to. -/
def polling (r : Pace) (measure : Delay → Nat) : Nat → Nat
  | 0 => 0
  | n + 1 => r.polling measure n + measure (r.delay n)

/-- Each delay is a number of milliseconds that a clock can count. -/
def WholeMillis (r : Pace) : Prop :=
  (∀ poll, ∃ m < 1000 * Delay.clockRange, r.delay poll = .millis m) ∧
    ∃ m < 1000 * Delay.clockRange, r.rest = .millis m

end Pace

/-- Why a visit is in vain. -/
inductive Vain where
  /-- The target names no endpoint. -/
  | unparsable
  /-- The poll with this number was refused or crashed. -/
  | failing (poll : Nat)
  /-- All polls were made, and none brought a live connection. -/
  | exhausted
deriving DecidableEq, Repr

namespace Vain

def polls (r : Pace) : Vain → Nat
  | unparsable => 0
  | failing poll => poll + 1
  | exhausted => r.attempts

/-- The polls that are followed by a delay of their own. -/
def pauses (r : Pace) : Vain → Nat
  | unparsable => 0
  | failing poll => poll
  | exhausted => r.attempts

/-- All delays of the visit. -/
def span (r : Pace) (measure : Delay → Nat) (v : Vain) : Nat :=
  r.polling measure (v.pauses r) + measure r.rest

end Vain

/-- All delays of one visit in vain after another. -/
def spans (r : Pace) (measure : Delay → Nat) : List Vain → Nat
  | [] => 0
  | v :: vs => v.span r measure + spans r measure vs

/-- The time that a search takes which comes to its end with the poll numbered `j`, after so many
visits in vain. -/
def searchTime (r : Pace) (measure : Delay → Nat) (vs : List Vain) (j : Nat) : Nat :=
  spans r measure vs + r.polling measure j

theorem spans_concat (r : Pace) (measure : Delay → Nat) (vs : List Vain) (v : Vain) :
    spans r measure (vs ++ [v]) = spans r measure vs + v.span r measure := by
  induction vs with
  | nil => exact Nat.add_comm ..
  | cons v' vs ih => rw [List.cons_append, spans, ih, spans, Nat.add_assoc]

def Call.dialed? : Call → Option (Endpoint × Credentials)
  | .dial endpoint credentials => some (endpoint, credentials)
  | _ => none

/-- The endpoints that are dialed in a list of calls, and the credentials presented to them. -/
def dialsIn (calls : List Call) : List (Endpoint × Credentials) := calls.filterMap Call.dialed?

def Counters.countVain (c : Counters) (visits : Nat) : Counters :=
  { c with connectFailures := c.connectFailures + UInt64.ofNat visits }

theorem Counters.countVain_zero (c : Counters) : c.countVain 0 = c := by
  have hcount : c.connectFailures + UInt64.ofNat 0 = c.connectFailures := UInt64.add_zero _
  rw [countVain, hcount]

theorem Counters.countVain_succ (c : Counters) (visits : Nat) :
    c.countVain (visits + 1) = (c.countVain visits).countConnectFailure := by
  have hcount : c.connectFailures + UInt64.ofNat (visits + 1) =
      c.connectFailures + UInt64.ofNat visits + 1 := by
    rw [UInt64.ofNat_add, ← UInt64.add_assoc]
    rfl
  rw [countVain, hcount]
  rfl

/-- The targets while there is no connection in use. -/
def Failover.searching (f : Failover) (rotation : List String) : Failover :=
  { f with active := none, rotation }

/-- What so many polls of a target dial. -/
def Failover.dials (f : Failover) (target : Option String) (polls : Nat) :
    List (Endpoint × Credentials) :=
  match target.map fun t => Endpoint.ofTarget t f.port with
  | some (.ok endpoint) => List.replicate polls (endpoint, f.credentials)
  | _ => []

/-- What the visits to the targets of a rotation dial, one after another and round after round. -/
def Failover.dialsOfVisits (f : Failover) (r : Pace) (rotation : List String) (vs : List Vain) :
    List (Endpoint × Credentials) :=
  vs.zipIdx.flatMap fun (v, i) => f.dials rotation[i % rotation.length]? (v.polls r)

theorem Failover.dialsOfVisits_concat (f : Failover) (r : Pace) (rotation : List String)
    (vs : List Vain) (v : Vain) :
    f.dialsOfVisits r rotation (vs ++ [v]) =
      f.dialsOfVisits r rotation vs ++
        f.dials rotation[vs.length % rotation.length]? (v.polls r) := by
  simp [dialsOfVisits, List.zipIdx_append]

theorem Failover.dials_of_parse {f : Failover} {target : String} {endpoint : Endpoint}
    (h : Endpoint.ofTarget target f.port = .ok endpoint) (polls : Nat) :
    f.dials (some target) polls = List.replicate polls (endpoint, f.credentials) := by
  simp only [dials, Option.map_some, h]

namespace Rehearsal

variable {σ : Type}

/-- The network, with a record of the calls that were made on it. -/
def recorded (partner : Partner σ) : Partner (σ × List Call) := fun s now call =>
  ((partner s.1 now call).1, (partner s.1 now call).2, s.2 ++ [call])

/-! ## The visits, told by the network -/

/-- How a poll ends. -/
inductive PollEnd where
  /-- There was no connection as yet, or one that was not live. -/
  | missed
  | failed
  | live (conn : ConnId)

/-- A poll at a time, from one state of the network to another. A connection that is not live is
released. If that crashes while a crash of the probe is under way, nothing is said, and neither is
anything if disposing of what a crash left crashes in turn. -/
inductive Polled (partner : Partner σ) (credentials : Credentials) (endpoint : Endpoint)
    (now : Nat) : σ → PollEnd → σ → Prop where
  | pending {s s' : σ} {a : Answers}
      (hdial : partner s now (.dial endpoint credentials) = (a, s'))
      (hpending : a.dial = .done none) : Polled partner credentials endpoint now s .missed s'
  | refused {s s' : σ} {a : Answers} {fault : Fault}
      (hdial : partner s now (.dial endpoint credentials) = (a, s'))
      (hrefused : a.dial = .refused fault) : Polled partner credentials endpoint now s .failed s'
  | crashed {s s' : σ} {a : Answers} {crash : Crash}
      (hdial : partner s now (.dial endpoint credentials) = (a, s'))
      (hcrashed : a.dial = .crashed crash) (hdisposed : a.disposal = none) :
      Polled partner credentials endpoint now s .failed s'
  | live {s s₁ s' : σ} {a b : Answers} {conn : ConnId}
      (hdial : partner s now (.dial endpoint credentials) = (a, s₁))
      (hconn : a.dial = .done (some conn))
      (hprobe : partner s₁ now (.probe conn) = (b, s')) (hlive : b.probe = .ok true) :
      Polled partner credentials endpoint now s (.live conn) s'
  | unready {s s₁ s₂ s' : σ} {a b d : Answers} {conn : ConnId}
      (hdial : partner s now (.dial endpoint credentials) = (a, s₁))
      (hconn : a.dial = .done (some conn))
      (hprobe : partner s₁ now (.probe conn) = (b, s₂)) (hdead : b.probe = .ok false)
      (hrelease : partner s₂ now (.release conn) = (d, s')) (hreleased : d.release = none) :
      Polled partner credentials endpoint now s .missed s'
  | unreleased {s s₁ s₂ s' : σ} {a b d : Answers} {conn : ConnId} {crash : Crash}
      (hdial : partner s now (.dial endpoint credentials) = (a, s₁))
      (hconn : a.dial = .done (some conn))
      (hprobe : partner s₁ now (.probe conn) = (b, s₂)) (hdead : b.probe = .ok false)
      (hrelease : partner s₂ now (.release conn) = (d, s')) (hcrash : d.release = some crash)
      (hdisposed : d.disposal = none) : Polled partner credentials endpoint now s .failed s'
  | lapsed {s s₁ s₂ s' : σ} {a b d : Answers} {conn : ConnId} {crash : Crash}
      (hdial : partner s now (.dial endpoint credentials) = (a, s₁))
      (hconn : a.dial = .done (some conn))
      (hprobe : partner s₁ now (.probe conn) = (b, s₂)) (hcrash : b.probe = .error crash)
      (hrelease : partner s₂ now (.release conn) = (d, s')) (hreleased : d.release = none)
      (hdisposed : d.disposal = none) : Polled partner credentials endpoint now s .failed s'

/-- The first so many polls of a visit that begins at `start`, all of them missed. -/
inductive Missed (partner : Partner σ) (r : Pace) (credentials : Credentials)
    (endpoint : Endpoint) (start : Nat) : Nat → σ → σ → Prop where
  | none {s : σ} : Missed partner r credentials endpoint start 0 s s
  | poll {i : Nat} {s s₁ s' : σ} (before : Missed partner r credentials endpoint start i s s₁)
      (missed : Polled partner credentials endpoint (start + r.polling Delay.wait i) s₁ .missed s') :
      Missed partner r credentials endpoint start (i + 1) s s'

/-- A visit in vain to a target that begins at `start`. -/
inductive Visited (partner : Partner σ) (r : Pace) (f : Failover) (target : String)
    (start : Nat) : Vain → σ → σ → Prop where
  | unparsable {s : σ} {fault : Fault} (hflaw : Endpoint.ofTarget target f.port = .error fault) :
      Visited partner r f target start .unparsable s s
  | failing {i : Nat} {s s₁ s' : σ} {endpoint : Endpoint}
      (hparse : Endpoint.ofTarget target f.port = .ok endpoint) (hlt : i < r.attempts)
      (before : Missed partner r f.credentials endpoint start i s s₁)
      (failed : Polled partner f.credentials endpoint (start + r.polling Delay.wait i) s₁
        .failed s') : Visited partner r f target start (.failing i) s s'
  | exhausted {s s' : σ} {endpoint : Endpoint}
      (hparse : Endpoint.ofTarget target f.port = .ok endpoint)
      (all : Missed partner r f.credentials endpoint start r.attempts s s') :
      Visited partner r f target start .exhausted s s'

/-- A visit to a target that begins at `start` and yields a live connection at poll `j`. -/
def Arrived (partner : Partner σ) (r : Pace) (f : Failover) (target : String) (start j : Nat)
    (conn : ConnId) (s s' : σ) : Prop :=
  ∃ endpoint s₁, Endpoint.ofTarget target f.port = .ok endpoint ∧ j < r.attempts ∧
    Missed partner r f.credentials endpoint start j s s₁ ∧
    Polled partner f.credentials endpoint (start + r.polling Delay.wait j) s₁ (.live conn) s'

/-- Visits in vain to the targets of a rotation, one after another and round after round, from
`start` on. -/
inductive Rounds (partner : Partner σ) (r : Pace) (f : Failover) (rotation : List String)
    (start : Nat) : List Vain → σ → σ → Prop where
  | none {s : σ} : Rounds partner r f rotation start [] s s
  | visit {vs : List Vain} {v : Vain} {s s₁ s' : σ} {target : String}
      (before : Rounds partner r f rotation start vs s s₁)
      (hturn : rotation[vs.length % rotation.length]? = some target)
      (visited : Visited partner r f target (start + spans r Delay.wait vs) v s₁ s') :
      Rounds partner r f rotation start (vs ++ [v]) s s'

/-- There is no live connection in use when a search begins, and the visits go through this
rotation: the target behind a dead connection is at its end. -/
inductive Unused (partner : Partner σ) (f : Failover) (now : Nat) :
    List String → σ → σ → Prop where
  | idle {s : σ} (hactive : f.active = none) : Unused partner f now f.rotation s s
  | dead {s s₁ s' : σ} {a b : Answers} {target : String} {conn : ConnId}
      (hactive : f.active = some (target, conn))
      (hprobe : partner s now (.probe conn) = (a, s₁))
      (hdead : a.probe = .ok false ∨ ∃ crash, a.probe = .error crash ∧ a.disposal = none)
      (hrelease : partner s₁ now (.release conn) = (b, s')) (hreleased : b.release = none) :
      Unused partner f now (f.rotation ++ [target]) s s'

/-! ## The search's side -/

/-- Where a search is on its way, but for what was logged and what was recorded. -/
structure Place (σ : Type) where
  failover : Failover
  counters : Counters
  now : Nat
  network : σ
  seek : Seek

namespace Place

def search (p : Place σ) (lines : Array LogLine) (calls : List Call) : Search (σ × List Call) :=
  { failover := p.failover, counters := p.counters, now := p.now, network := (p.network, calls),
    lines }

/-- The time at which the next step is taken. -/
def awake (p : Place σ) : Nat :=
  match p.seek.wake? with
  | none => p.now
  | some wake => max p.now wake

/-- What the network says to the next step. -/
def asked (partner : Partner σ) (p : Place σ) : Answers × σ :=
  match p.failover.call? p.seek with
  | none => ({}, p.network)
  | some call => partner p.network p.awake call

def turn (partner : Partner σ) (p : Place σ) : Turn :=
  p.failover.step p.counters p.awake (p.asked partner).1 p.seek

end Place

open Place

variable {partner : Partner σ}

/-- The search after the next step, with what is logged and recorded in it. -/
def Place.taken (partner : Partner σ) (p : Place σ) (lines : Array LogLine) (calls : List Call) :
    Search (σ × List Call) where
  failover := (p.turn partner).failover
  counters := (p.turn partner).counters
  now := p.awake
  network := ((p.asked partner).2, calls ++ (p.failover.call? p.seek).toList)
  lines := lines ++ linesOf (p.turn partner).notes

theorem step_recorded (partner : Partner σ) (p : Place σ) (lines : Array LogLine)
    (calls : List Call) :
    Search.step (recorded partner) { p.search lines calls with now := p.awake } p.seek =
      (p.taken partner lines calls, (p.turn partner).progress) := by
  unfold Search.step taken turn asked search
  cases p.failover.call? p.seek with
  | none => simp
  | some call => rfl

/-- One round of the loop, at a place whose next step falls due by then. -/
theorem go_succ {p : Place σ} {moment : Nat} (hdue : p.awake ≤ moment) (fuel : Nat)
    (lines : Array LogLine) (calls : List Call) :
    Search.go (recorded partner) moment (fuel + 1) (p.search lines calls) p.seek =
      match (p.turn partner).progress with
      | .seeking next => Search.go (recorded partner) moment fuel (p.taken partner lines calls) next
      | .found conn => (p.taken partner lines calls, some conn)
      | .broken _ => (p.taken partner lines calls, none) := by
  have hstep := step_recorded partner p lines calls
  generalize p.taken partner lines calls = s, (p.turn partner).progress = progress at hstep ⊢
  unfold awake at hdue hstep
  rw [Search.go]
  cases hwake : p.seek.wake? with
  | none =>
      rw [hwake] at hstep
      have hnow : Search.step (recorded partner) (p.search lines calls) p.seek = (s, progress) :=
        hstep
      simp only [hnow]
      cases progress <;> rfl
  | some wake =>
      rw [hwake] at hdue hstep
      have hle : wake ≤ moment := Nat.le_trans (Nat.le_max_right ..) hdue
      have hthen : Search.step (recorded partner)
          { p.search lines calls with now := max (p.search lines calls).now wake } p.seek =
            (s, progress) := hstep
      simp only [if_pos hle, hthen]
      cases progress <;> rfl

def Turn.Onward (t : Turn) (f : Failover) (c : Counters) (next : Seek) : Prop :=
  ∃ notes, t = ⟨f, c, .seeking next, notes⟩

/-- The search gets from one place to another, and dials these endpoints on the way. -/
structure Reaches (partner : Partner σ) (p : Place σ) (dials : List (Endpoint × Credentials))
    (p' : Place σ) : Prop where
  forward : p.now ≤ p'.now
  steps : ∃ n, ∀ lines calls, ∃ lines' more, dialsIn more = dials ∧
    ∀ fuel moment, p'.now ≤ moment →
      Search.go (recorded partner) moment (fuel + n) (p.search lines calls) p.seek =
        Search.go (recorded partner) moment fuel (p'.search lines' (calls ++ more)) p'.seek

namespace Reaches

variable {p p₁ p₂ : Place σ} {dials dials' : List (Endpoint × Credentials)}

theorem refl (partner : Partner σ) (p : Place σ) : Reaches partner p [] p := by
  refine ⟨Nat.le_refl _, 0, fun lines calls => ⟨lines, [], rfl, fun fuel moment _ => ?_⟩⟩
  rw [List.append_nil, Nat.add_zero]

theorem trans (h : Reaches partner p dials p₁) (h' : Reaches partner p₁ dials' p₂) :
    Reaches partner p (dials ++ dials') p₂ := by
  obtain ⟨n, hsteps⟩ := h.steps
  obtain ⟨n', hsteps'⟩ := h'.steps
  refine ⟨Nat.le_trans h.forward h'.forward, n' + n, fun lines calls => ?_⟩
  obtain ⟨lines₁, more, hmore, hgo⟩ := hsteps lines calls
  obtain ⟨lines₂, more', hmore', hgo'⟩ := hsteps' lines₁ (calls ++ more)
  refine ⟨lines₂, more ++ more', ?_, fun fuel moment hdue => ?_⟩
  · rw [dialsIn, List.filterMap_append, ← hmore, ← hmore']
    rfl
  · rw [← Nat.add_assoc, hgo _ _ (Nat.le_trans h'.forward hdue), hgo' _ _ hdue, List.append_assoc]

theorem trans_quiet (h : Reaches partner p dials p₁) (h' : Reaches partner p₁ [] p₂) :
    Reaches partner p dials p₂ := by
  have hall := h.trans h'
  rwa [List.append_nil] at hall

/-- One step, at the time that it waits for. -/
theorem step {a : Answers} (hasked : p.asked partner = (a, p₁.network))
    (honward : Turn.Onward (p.failover.step p.counters p.awake a p.seek)
      p₁.failover p₁.counters p₁.seek)
    (hnow : p.awake = p₁.now) (hdials : dialsIn (p.failover.call? p.seek).toList = dials) :
    Reaches partner p dials p₁ := by
  have hawake : p.now ≤ p.awake := by
    unfold awake
    split
    · exact Nat.le_refl _
    · exact Nat.le_max_left ..
  obtain ⟨notes, honward⟩ := honward
  have hturn : p.turn partner = ⟨p₁.failover, p₁.counters, .seeking p₁.seek, notes⟩ := by
    rw [turn, hasked]
    exact honward
  refine ⟨hnow ▸ hawake, 1, fun lines calls => ?_⟩
  refine ⟨lines ++ linesOf notes, _, hdials, fun fuel moment hdue => ?_⟩
  rw [go_succ (hnow.trans_le hdue), taken, hturn, hasked, hnow]
  rfl

end Reaches

/-! ## From one to the other -/

section Following

variable {r : Pace} {f : Failover} {c : Counters} {now : Nat} {s s' : σ}

theorem onward_rest (hpacing : f.pacing = r.pacing) (notes : List Note) :
    Turn.Onward (f.rest c now notes) f c (.resting (now + r.rest.wait)) := by
  rw [Failover.rest, hpacing]
  exact ⟨notes, rfl⟩

theorem onward_failed (hpacing : f.pacing = r.pacing) (notes : List Note) (target : String)
    (fault : Fault) :
    Turn.Onward (f.failed c now notes target fault) f c.countConnectFailure
      (.resting (now + r.rest.wait)) :=
  onward_rest hpacing _

theorem onward_exhausted (hpacing : f.pacing = r.pacing) (notes : List Note) (target : String) :
    Turn.Onward (f.exhausted c now notes target) f c.countConnectFailure
      (.resting (now + r.rest.wait)) := by
  simp only [Failover.exhausted, hpacing, Pace.pacing]
  exact onward_rest hpacing _

theorem onward_caught {a : Answers} {f' : Failover} {c' : Counters} {next : Seek} {t : Turn}
    (hdisposed : a.disposal = none) (honward : Turn.Onward t f' c' next) (notes : List Note) :
    Turn.Onward (f.caught c a notes t) f' c' next := by
  rw [Failover.caught, hdisposed]
  exact honward

theorem onward_pause (hpacing : f.pacing = r.pacing) (notes : List Note) (v : Visit) :
    Turn.Onward (f.pause c now notes v) f c (.pausing v (now + (r.delay v.poll).wait)) := by
  rw [Failover.pause, hpacing]
  exact ⟨notes, rfl⟩

/-- A suspended search goes on when its delay is over. -/
theorem reaches_woken {f' : Failover} {c' : Counters} {suspended next : Seek} {wait : Nat}
    (hwake : suspended.wake? = some (now + wait)) (hcall : f.call? suspended = none)
    (honward : Turn.Onward (f.step c (now + wait) {} suspended) f' c' next) :
    Reaches partner ⟨f, c, now, s, suspended⟩ [] ⟨f', c', now + wait, s, next⟩ := by
  have hawake : awake (⟨f, c, now, s, suspended⟩ : Place σ) = now + wait := by
    simp only [awake, hwake]
    exact Nat.max_eq_right (Nat.le_add_right ..)
  refine Reaches.step (a := {}) ?_ ?_ hawake ?_
  · simp only [asked, hcall]
  · rw [hawake]
    exact honward
  · simp only [hcall]
    rfl

/-- The delay after a visit in vain, and the turn of the rotation at its end. -/
theorem reaches_rotated (wait : Nat) :
    Reaches partner ⟨f, c, now, s, .resting (now + wait)⟩ []
      ⟨f.rotated, c, now + wait, s, .visiting⟩ :=
  reaches_woken rfl rfl ⟨[], if_neg (Nat.lt_irrefl _)⟩

theorem reaches_nextPoll {v : Visit} {wait : Nat} {f' : Failover} {c' : Counters} {next : Seek}
    (honward : Turn.Onward (f.nextPoll c (now + wait) [] v) f' c' next) :
    Reaches partner ⟨f, c, now, s, .pausing v (now + wait)⟩ [] ⟨f', c', now + wait, s, next⟩ := by
  refine reaches_woken rfl rfl ?_
  rw [Failover.step, if_neg (Nat.lt_irrefl _)]
  exact honward

theorem reaches_probing {v : Visit} {conn : ConnId} {a : Answers}
    (hdial : partner s now (.dial v.endpoint f.credentials) = (a, s'))
    (hconn : a.dial = .done (some conn)) :
    Reaches partner ⟨f, c, now, s, .dialing v⟩ [(v.endpoint, f.credentials)]
      ⟨f, c, now, s', .probing v conn⟩ := by
  refine Reaches.step hdial ?_ rfl rfl
  show Turn.Onward (f.step c now a (.dialing v)) _ _ _
  simp only [Failover.step, hconn]
  exact ⟨_, rfl⟩

theorem reaches_discarding {v : Visit} {conn : ConnId} {b : Answers}
    (hprobe : partner s now (.probe conn) = (b, s')) (hdead : b.probe = .ok false) :
    Reaches partner ⟨f, c, now, s, .probing v conn⟩ [] ⟨f, c, now, s', .discarding v conn⟩ := by
  refine Reaches.step hprobe ?_ rfl rfl
  show Turn.Onward (f.step c now b (.probing v conn)) _ _ _
  simp only [Failover.step, hdead]
  exact ⟨_, rfl⟩

theorem reaches_lapsing {v : Visit} {conn : ConnId} {b : Answers} {crash : Crash}
    (hprobe : partner s now (.probe conn) = (b, s')) (hcrash : b.probe = .error crash) :
    Reaches partner ⟨f, c, now, s, .probing v conn⟩ [] ⟨f, c, now, s', .lapsing v conn crash⟩ := by
  refine Reaches.step hprobe ?_ rfl rfl
  show Turn.Onward (f.step c now b (.probing v conn)) _ _ _
  simp only [Failover.step, hcrash]
  exact ⟨_, rfl⟩

theorem reaches_pausing (hpacing : f.pacing = r.pacing) {v : Visit}
    (h : Polled partner f.credentials v.endpoint now s .missed s') :
    Reaches partner ⟨f, c, now, s, .dialing v⟩ [(v.endpoint, f.credentials)]
      ⟨f, c, now, s', .pausing v (now + (r.delay v.poll).wait)⟩ := by
  cases h with
  | @pending _ a hdial hpending =>
      refine Reaches.step hdial ?_ rfl rfl
      show Turn.Onward (f.step c now a (.dialing v)) _ _ _
      simp only [Failover.step, hpending]
      exact onward_pause hpacing _ v
  | @unready _ _ _ _ _ d conn hdial hconn hprobe hdead hrelease hreleased =>
      refine (reaches_probing hdial hconn).trans ((reaches_discarding hprobe hdead).trans ?_)
      refine Reaches.step hrelease ?_ rfl rfl
      show Turn.Onward (f.step c now d (.discarding v conn)) _ _ _
      simp only [Failover.step, hreleased]
      exact onward_pause hpacing _ v

theorem reaches_resting (hpacing : f.pacing = r.pacing) {v : Visit}
    (h : Polled partner f.credentials v.endpoint now s .failed s') :
    Reaches partner ⟨f, c, now, s, .dialing v⟩ [(v.endpoint, f.credentials)]
      ⟨f, c.countConnectFailure, now, s', .resting (now + r.rest.wait)⟩ := by
  cases h with
  | @refused _ a _ hdial hrefused =>
      refine Reaches.step hdial ?_ rfl rfl
      show Turn.Onward (f.step c now a (.dialing v)) _ _ _
      simp only [Failover.step, hrefused]
      exact onward_failed hpacing _ _ _
  | @crashed _ a _ hdial hcrashed hdisposed =>
      refine Reaches.step hdial ?_ rfl rfl
      show Turn.Onward (f.step c now a (.dialing v)) _ _ _
      simp only [Failover.step, hcrashed]
      exact onward_caught hdisposed (onward_failed hpacing _ _ _) _
  | @unreleased _ _ _ _ _ d conn _ hdial hconn hprobe hdead hrelease hcrash hdisposed =>
      refine (reaches_probing hdial hconn).trans ((reaches_discarding hprobe hdead).trans ?_)
      refine Reaches.step hrelease ?_ rfl rfl
      show Turn.Onward (f.step c now d (.discarding v conn)) _ _ _
      simp only [Failover.step, hcrash]
      exact onward_caught hdisposed (onward_failed hpacing _ _ _) _
  | @lapsed _ _ _ _ _ d conn crash hdial hconn hprobe hcrash hrelease _ hdisposed =>
      refine (reaches_probing hdial hconn).trans ((reaches_lapsing hprobe hcrash).trans ?_)
      refine Reaches.step hrelease ?_ rfl rfl
      show Turn.Onward (f.step c now d (.lapsing v conn crash)) _ _ _
      simp only [Failover.step]
      exact onward_caught hdisposed (onward_failed hpacing _ _ _) _

theorem reaches_polls (hpacing : f.pacing = r.pacing) {target : String} {endpoint : Endpoint}
    {start i : Nat} (h : Missed partner r f.credentials endpoint start i s s')
    (hlt : i < r.attempts) :
    Reaches partner ⟨f, c, start, s, .dialing ⟨target, endpoint, r.attempts, 0⟩⟩
      (List.replicate i (endpoint, f.credentials))
      ⟨f, c, start + r.polling Delay.wait i, s', .dialing ⟨target, endpoint, r.attempts, i⟩⟩ := by
  induction h with
  | none => exact Reaches.refl partner _
  | @poll i _ _ _ before missed ih =>
      rw [List.replicate_succ']
      refine (ih (by omega)).trans ((reaches_pausing hpacing missed).trans_quiet ?_)
      rw [Pace.polling, ← Nat.add_assoc]
      refine reaches_nextPoll ⟨[], ?_⟩
      exact if_pos hlt

/-- The visit begins: the target names an endpoint, and there are polls to make. -/
theorem reaches_dialing (hpacing : f.pacing = r.pacing) {target : String} {others : List String}
    {endpoint : Endpoint} (hrotation : f.rotation = target :: others)
    (hparse : Endpoint.ofTarget target f.port = .ok endpoint) (hpos : 0 < r.attempts) :
    Reaches partner ⟨f, c, now, s, .visiting⟩ []
      ⟨f, c, now, s, .dialing ⟨target, endpoint, r.attempts, 0⟩⟩ := by
  refine Reaches.step rfl ?_ rfl rfl
  show Turn.Onward (f.visit c now) _ _ _
  obtain ⟨n, hn⟩ := Nat.exists_eq_succ_of_ne_zero hpos.ne'
  simp only [Failover.visit, hrotation, hparse, hpacing, Pace.pacing, hn]
  exact ⟨[], rfl⟩

/-- A visit in vain up to the delay at its end. -/
theorem reaches_end_of_visit (hpacing : f.pacing = r.pacing) {target : String}
    {others : List String} {start : Nat} {v : Vain} (hrotation : f.rotation = target :: others)
    (h : Visited partner r f target start v s s') :
    Reaches partner ⟨f, c, start, s, .visiting⟩ (f.dials (some target) (v.polls r))
      ⟨f, c.countConnectFailure, start + r.polling Delay.wait (v.pauses r), s',
        .resting (start + r.polling Delay.wait (v.pauses r) + r.rest.wait)⟩ := by
  cases h with
  | unparsable hflaw =>
      refine Reaches.step rfl ?_ rfl ?_
      · show Turn.Onward (f.visit c start) _ _ _
        simp only [Failover.visit, hrotation, hflaw]
        exact onward_failed hpacing _ _ _
      · simp only [Failover.dials, Option.map_some, hflaw]
        rfl
  | @failing i _ _ _ endpoint hparse hlt before failed =>
      rw [Vain.polls, Failover.dials_of_parse hparse, List.replicate_succ']
      refine (reaches_dialing hpacing hrotation hparse (by omega)).trans ?_
      exact (reaches_polls hpacing before hlt).trans (reaches_resting hpacing failed)
  | @exhausted _ _ endpoint hparse all =>
      rw [Vain.polls, Vain.pauses, Failover.dials_of_parse hparse]
      generalize hn : r.attempts = n at all
      -- Without a poll to make the visit is over at once; else the last poll finds none to follow.
      cases all with
      | none =>
          refine Reaches.step rfl ?_ rfl rfl
          show Turn.Onward (f.visit c start) _ _ _
          simp only [Failover.visit, hrotation, hparse, hpacing, Pace.pacing, hn]
          exact onward_exhausted hpacing _ _
      | @poll i _ _ _ before missed =>
          rw [List.replicate_succ', Pace.polling]
          refine (reaches_dialing hpacing hrotation hparse (by omega)).trans ?_
          refine (reaches_polls hpacing before (by omega)).trans ?_
          refine (reaches_pausing hpacing missed).trans_quiet ?_
          rw [← Nat.add_assoc]
          refine reaches_nextPoll ?_
          rw [Failover.nextPoll, if_neg (by simp only; omega)]
          exact onward_exhausted hpacing _ _

theorem reaches_visited (hpacing : f.pacing = r.pacing) {target : String} {others : List String}
    {start : Nat} {v : Vain} (h : Visited partner r f target start v s s') :
    Reaches partner ⟨f.searching (target :: others), c, start, s, .visiting⟩
      (f.dials (some target) (v.polls r))
      ⟨f.searching (others ++ [target]), c.countConnectFailure, start + v.span r Delay.wait, s',
        .visiting⟩ := by
  have hvisit : Visited partner r (f.searching (target :: others)) target start v s s' := by
    cases h with
    | unparsable hflaw => exact .unparsable hflaw
    | failing hparse hlt before failed => exact .failing hparse hlt before failed
    | exhausted hparse all => exact .exhausted hparse all
  have hend := reaches_end_of_visit (c := c) (f := f.searching (target :: others)) hpacing rfl hvisit
  have hturn := hend.trans_quiet (reaches_rotated r.rest.wait)
  rw [Nat.add_assoc] at hturn
  exact hturn

theorem rotate_eq_cons {rotation : List String} {k : Nat} {target : String}
    (hturn : rotation[k % rotation.length]? = some target) :
    ∃ others, rotation.rotate k = target :: others := by
  have hpos : 0 < rotation.length := by
    rcases rotation with _ | ⟨t, ts⟩
    · cases hturn
    · exact Nat.succ_pos _
  apply List.head?_eq_some_iff.mp
  rw [← List.rotate_mod, List.head?_rotate (Nat.mod_lt _ hpos), hturn]

/-- After so many visits in vain the rotation has turned as often. -/
theorem reaches_rounds (hpacing : f.pacing = r.pacing) {rotation : List String} {start : Nat}
    {vs : List Vain} (h : Rounds partner r f rotation start vs s s') :
    Reaches partner ⟨f.searching rotation, c, start, s, .visiting⟩ (f.dialsOfVisits r rotation vs)
      ⟨f.searching (rotation.rotate vs.length), c.countVain vs.length,
        start + spans r Delay.wait vs, s', .visiting⟩ := by
  induction h with
  | none =>
      rw [List.length_nil, List.rotate_zero, Counters.countVain_zero]
      exact Reaches.refl partner _
  | @visit vs v _ s₁ s₂ target before hturn visited ih =>
      obtain ⟨others, hhead⟩ := rotate_eq_cons hturn
      have hnext : rotation.rotate (vs.length + 1) = others ++ [target] := by
        rw [← List.rotate_rotate, hhead, List.rotate_cons_succ, List.rotate_zero]
      -- The target of this visit is the head of the rotation that the earlier visits have turned.
      rw [hhead] at ih
      rw [Failover.dialsOfVisits_concat, spans_concat, List.length_append, List.length_singleton,
        hnext, Counters.countVain_succ, hturn, ← Nat.add_assoc]
      exact ih.trans (reaches_visited hpacing visited)

/-- The beginning of a search that finds no live connection in use. -/
theorem reaches_visiting {rotation : List String} (h : Unused partner f now rotation s s') :
    ∃ published, Reaches partner ⟨f, c, now, s, .verifying⟩ []
      ⟨f.searching rotation, { c with activeTarget := published }, now, s', .visiting⟩ := by
  cases h with
  | idle hactive =>
      have hsame : f.searching f.rotation = f := by
        rw [Failover.searching, ← hactive]
      refine ⟨c.activeTarget, Reaches.step (a := {}) ?_ ?_ rfl ?_⟩
      · simp only [asked, Failover.call?, hactive]
        rfl
      · show Turn.Onward (f.step c now _ .verifying) _ _ _
        simp only [Failover.step, hactive, hsame]
        exact ⟨[], rfl⟩
      · simp only [Failover.call?, hactive]
        rfl
  | @dead _ s₁ _ a b target conn hactive hprobe hdead hrelease hreleased =>
      have hretired : Reaches partner ⟨f, c, now, s, .verifying⟩ []
          ⟨f.searching (f.rotation ++ [target]), c.disconnected, now, s₁, .dropping conn⟩ := by
        refine Reaches.step (a := a) ?_ ?_ rfl ?_
        · simp only [asked, Failover.call?, hactive]
          exact hprobe
        · show Turn.Onward (f.step c now a .verifying) _ _ _
          obtain hdead | ⟨crash, hcrash, hdisposed⟩ := hdead
          · simp only [Failover.step, hactive, hdead]
            exact ⟨_, rfl⟩
          · simp only [Failover.step, hactive, hcrash]
            exact onward_caught hdisposed ⟨_, rfl⟩ _
        · simp only [Failover.call?, hactive]
          rfl
      refine ⟨none, hretired.trans_quiet (Reaches.step hrelease ?_ rfl rfl)⟩
      show Turn.Onward (Failover.step _ _ now b (.dropping conn)) _ _ _
      simp only [Failover.step, hreleased]
      exact ⟨_, rfl⟩

theorem reaches_live (hpacing : f.pacing = r.pacing) {target : String} {others : List String}
    {start j : Nat} {conn : ConnId} (h : Arrived partner r f target start j conn s s') :
    ∃ (v : Visit) (s₁ : σ) (b : Answers), v.target = target ∧
      partner s₁ (start + r.polling Delay.wait j) (.probe conn) = (b, s') ∧ b.probe = .ok true ∧
      Reaches partner ⟨f.searching (target :: others), c, start, s, .visiting⟩
        (f.dials (some target) (j + 1))
        ⟨f.searching (target :: others), c, start + r.polling Delay.wait j, s₁,
          .probing v conn⟩ := by
  obtain ⟨endpoint, _, hparse, hlt, before, live⟩ := h
  cases live with
  | @live s₁ _ a b _ hdial hconn hprobe hlive =>
      refine ⟨⟨target, endpoint, r.attempts, j⟩, s₁, b, rfl, hprobe, hlive, ?_⟩
      rw [Failover.dials_of_parse hparse, List.replicate_succ']
      refine (reaches_dialing (f := f.searching (target :: others)) hpacing rfl hparse
        (by omega)).trans ?_
      exact (reaches_polls (f := f.searching (target :: others)) hpacing before hlt).trans
        (reaches_probing hdial hconn)

theorem go_live {v : Visit} {conn : ConnId} {b : Answers} {moment : Nat}
    (hprobe : partner s now (.probe conn) = (b, s')) (hlive : b.probe = .ok true)
    (hdue : now ≤ moment) (fuel : Nat) (lines : Array LogLine) (calls : List Call) :
    ∃ lines', Search.go (recorded partner) moment (fuel + 1)
      (search ⟨f, c, now, s, .probing v conn⟩ lines calls) (.probing v conn) =
      ({ failover := { f with active := some (v.target, conn), rotation := f.rotation.tail }
         counters := c.connected v.target
         now
         network := (s', calls ++ [.probe conn])
         lines := lines' }, some conn) := by
  have hgo := @go_succ _ partner ⟨f, c, now, s, .probing v conn⟩ moment hdue fuel lines calls
  have hturn : turn partner ⟨f, c, now, s, .probing v conn⟩ =
      f.settle c [.probed conn b.probe] v.target conn := by
    show f.step c now (partner s now (.probe conn)).1 (.probing v conn) = _
    rw [hprobe]
    simp only [Failover.step, hlive]
  have hasked : asked partner ⟨f, c, now, s, .probing v conn⟩ = (b, s') := hprobe
  rw [taken, hturn, hasked] at hgo
  exact ⟨_, hgo⟩

end Following

/-- Whole milliseconds within the range of a clock are waited for exactly. -/
theorem wait_millis {m : Nat} (h : m < 1000 * Delay.clockRange) :
    (Delay.millis m).wait * Delay.perMilli = (Delay.millis m).nanos := by
  have hrange : ¬ Delay.clockRange ≤ (Delay.millis m).nanos / Delay.perSecond := by
    simp only [Delay.millis, Delay.perMilli, Delay.perSecond]
    omega
  rw [Delay.wait, if_neg hrange]
  simp only [Delay.millis, Delay.perMilli]
  omega

theorem searchTime_exact {r : Pace} (h : r.WholeMillis) (vs : List Vain) (j : Nat) :
    searchTime r Delay.wait vs j * Delay.perMilli = searchTime r Delay.nanos vs j := by
  have hpolling : ∀ n, r.polling Delay.wait n * Delay.perMilli = r.polling Delay.nanos n := by
    intro n
    induction n with
    | zero => exact Nat.zero_mul _
    | succ n ih =>
        obtain ⟨m, hm, hdelay⟩ := h.1 n
        rw [Pace.polling, Pace.polling, Nat.add_mul, ih, hdelay, wait_millis hm]
  have hspans : spans r Delay.wait vs * Delay.perMilli = spans r Delay.nanos vs := by
    induction vs with
    | nil => exact Nat.zero_mul _
    | cons v vs ih =>
        obtain ⟨m, hm, hrest⟩ := h.2
        have hspan : v.span r Delay.wait * Delay.perMilli = v.span r Delay.nanos := by
          rw [Vain.span, Vain.span, Nat.add_mul, hpolling, hrest, wait_millis hm]
        rw [spans, spans, Nat.add_mul, ih, hspan]
  rw [searchTime, searchTime, Nat.add_mul, hspans, hpolling]

/-- A search that begins without a live connection visits the rotation in its order, round after
round. If so many visits are in vain, in whatever ways, and the next one yields a live connection at
its poll `j`, then the search finds that connection. It has dialed each target as often as its
visits allow and in the order of the visits, it has counted one failure for each visit in vain and
one connection, it has waited for the delays and nothing else, and the rotation goes on behind the
target in use. -/
theorem round_robin_exact {partner : Partner σ} {r : Pace} {f : Failover}
    (hpacing : f.pacing = r.pacing) {start : Nat} {rotation : List String} {s₀ s₁ s₂ s₃ : σ}
    (unused : Unused partner f start rotation s₀ s₁) {vs : List Vain}
    (rounds : Rounds partner r f rotation start vs s₁ s₂) {target : String}
    (hturn : rotation[vs.length % rotation.length]? = some target) {j : Nat} {conn : ConnId}
    (arrived : Arrived partner r f target (start + spans r Delay.wait vs) j conn s₂ s₃)
    (c : Counters) :
    ∃ steps, ∀ fuel moment lines, steps ≤ fuel →
      start + searchTime r Delay.wait vs j ≤ moment →
      let (out, found) := Search.go (recorded partner) moment fuel
        { failover := f, counters := c, now := start, network := (s₀, []), lines } .verifying
      found = some conn ∧
      dialsIn out.network.2 = f.dialsOfVisits r rotation vs ++ f.dials (some target) (j + 1) ∧
      out.counters = { c with
        connectFailures := c.connectFailures + UInt64.ofNat vs.length
        connectionsEstablished := c.connectionsEstablished + 1
        activeTarget := some target } ∧
      out.failover = { f with
        active := some (target, conn)
        rotation := (rotation.rotate vs.length).tail } ∧
      out.network.1 = s₃ ∧
      out.now = start + searchTime r Delay.wait vs j ∧
      (r.WholeMillis → (out.now - start) * Delay.perMilli = searchTime r Delay.nanos vs j) := by
  obtain ⟨published, hopen⟩ := reaches_visiting (c := c) unused
  have hrounds := reaches_rounds (c := { c with activeTarget := published }) hpacing rounds
  obtain ⟨others, hhead⟩ := rotate_eq_cons hturn
  rw [hhead] at hrounds ⊢
  obtain ⟨v, s, b, rfl, hprobe, hlive, hlast⟩ := reaches_live hpacing arrived
  rw [Nat.add_assoc] at hprobe hlast
  -- So the search gets to its last probe, and one more step puts the connection to use.
  have hsearch := hopen.trans (hrounds.trans hlast)
  obtain ⟨n, hsteps⟩ := hsearch.steps
  refine ⟨1 + n, fun fuel moment lines hfuel hdue => ?_⟩
  obtain ⟨m, rfl⟩ : ∃ m, fuel = m + 1 + n := ⟨fuel - (1 + n), by omega⟩
  obtain ⟨lines', more, hmore, hgo⟩ := hsteps lines []
  obtain ⟨lines'', hfound⟩ := go_live (f := f.searching (v.target :: others))
    (c := { c with activeTarget := published }.countVain vs.length) hprobe hlive hdue m lines'
    ([] ++ more)
  have hend := (hgo (m + 1) moment hdue).trans hfound
  have hdials : dialsIn ([] ++ more ++ [.probe conn]) =
      f.dialsOfVisits r rotation vs ++ f.dials (some v.target) (j + 1) := by
    rw [List.nil_append, dialsIn, List.filterMap_append, ← dialsIn, hmore]
    exact List.append_nil _
  simp only [search] at hend
  rw [hend]
  refine ⟨rfl, hdials, rfl, rfl, rfl, rfl, fun hwhole => ?_⟩
  show (start + searchTime r Delay.wait vs j - start) * Delay.perMilli = _
  rw [Nat.add_sub_cancel_left, searchTime_exact hwhole]

/-- Two polls a visit, and the second delay is longer than the first. -/
def twoPolls : Pace := ⟨2, fun poll => .millis (100 * (poll + 1)), .millis 1000⟩

/-- A network that counts how often it was dialed: it refuses the fourth dial, brings a connection
at the sixth, and lets go of connection 3. -/
def sixthTime : Partner Nat := fun dialed _ call =>
  match call with
  | .dial _ _ =>
    (if dialed = 3 then { dial := .refused (.transport "reset") }
      else if dialed = 5 then { dial := .done (some 7) } else {}, dialed + 1)
  | .probe 3 => ({ probe := .ok false }, dialed)
  | _ => ({}, dialed)

/-- A link whose other target names no endpoint, and whose connection is dead. -/
def halfUsable : Failover where
  link := "link"
  rotation := ["[h"]
  active := some ("h", 3)
  port := 5701
  credentials := ⟨"tokyo", "pass"⟩
  pacing := twoPolls.pacing

theorem round_robin_exact_third_round :
    ∃ steps, ∀ fuel moment lines, steps ≤ fuel → 5500 ≤ moment →
      let (out, found) := Search.go (recorded sixthTime) moment fuel
        { failover := halfUsable, now := 0, network := (0, []), lines } .verifying
      found = some 7 ∧ dialsIn out.network.2 = List.replicate 6 (⟨"h", 5701⟩, ⟨"tokyo", "pass"⟩) ∧
      out.counters.connectFailures = 5 ∧ out.failover.rotation = ["[h"] ∧ out.now = 5500 := by
  have unused : Unused sixthTime halfUsable 0 ["[h", "h"] 0 0 :=
    .dead rfl rfl (Or.inl rfl) rfl rfl
  have hflaw : Endpoint.ofTarget "[h" halfUsable.port = .error
    (.target "[h" Endpoint.Flaw.unclosedBracket.message) := rfl
  have hparse : Endpoint.ofTarget "h" halfUsable.port = .ok ⟨"h", 5701⟩ := rfl
  have none : Rounds sixthTime twoPolls halfUsable ["[h", "h"] 0 [] 0 0 := .none
  have one := none.visit rfl (.unparsable hflaw)
  have two := one.visit rfl (.exhausted hparse
    ((Missed.none.poll (.pending rfl rfl)).poll (.pending rfl rfl)))
  have three := two.visit rfl (.unparsable hflaw)
  have four := three.visit rfl (.failing hparse (by decide)
    (Missed.none.poll (.pending rfl rfl)) (.refused rfl rfl))
  have five := four.visit rfl (.unparsable hflaw)
  obtain ⟨steps, h⟩ := round_robin_exact rfl unused five (j := 1) rfl
    ⟨_, _, hparse, by decide, Missed.none.poll (.pending rfl rfl), .live rfl rfl rfl rfl⟩ {}
  refine ⟨steps, fun fuel moment lines hfuel hdue => ?_⟩
  obtain ⟨hfound, hdials, hcounters, hfailover, -, hnow, -⟩ := h fuel moment lines hfuel hdue
  refine ⟨hfound, hdials, ?_, ?_, hnow⟩
  · rw [hcounters]
    rfl
  · rw [hfailover]
    rfl

end Rehearsal

end ClusterRelay
