import ClusterRelay.Proofs.Attempts
import ClusterRelay.Proofs.Sessions
import Mathlib.Data.List.Flatten

/-!
# What peers apply across reconnects

A link sends its mutations over one connection after another. Each connection can die at any byte,
and what it swallowed is lost or sent again on the next, so the peers see gaps and repetitions. They
never see the mutations in another order. Three facts make this so. The attempts come in the order of
the offers (`Chronicle`). A connection that was given up is never put to use again, provided that it
stays dead, so that the frames that were accepted come in groups, one group for each connection, in
the order in which the connections were established (`Grouped`). And of its group a peer applies the
beginning (`Session.applied_of_cut`). What all peers apply is then, one after another, what was
attempted with some of it left out.
-/

namespace ClusterRelay

/-! ## Groups -/

/-- `items` come in groups, one for each key, in the order of the keys; groups may be empty. -/
inductive Grouped {κ : Type} : List κ → List κ → Prop where
  | nil : Grouped [] []
  | opened {keys items : List κ} {key : κ} (h : Grouped keys items) (hnew : key ∉ keys) :
      Grouped (keys ++ [key]) items
  | grown {keys items : List κ} {key : κ} (h : Grouped (keys ++ [key]) items) :
      Grouped (keys ++ [key]) (items ++ [key])

namespace Grouped

variable {κ α : Type} {keys items : List κ}

theorem mem_keys (h : Grouped keys items) : ∀ item ∈ items, item ∈ keys := by
  induction h with
  | nil => exact nofun
  | opened _ _ ih => exact fun item hitem => List.mem_append_left _ (ih item hitem)
  | grown _ ih =>
      intro item hitem
      rcases List.mem_append.mp hitem with hitem | hitem
      · exact ih item hitem
      · exact List.mem_append_right _ hitem

theorem nodup (h : Grouped keys items) : keys.Nodup := by
  induction h with
  | nil => exact List.nodup_nil
  | opened _ hnew ih =>
      refine List.pairwise_append.mpr ⟨ih, List.pairwise_singleton _ _, ?_⟩
      rintro a ha b hb rfl
      exact hnew (List.mem_singleton.mp hb ▸ ha)
  | grown _ ih => exact ih

/-- Items that come in groups are their groups, one after another. -/
theorem flatMap_filter [DecidableEq κ] {f : α → κ} {xs : List α} (h : Grouped keys (xs.map f)) :
    keys.flatMap (fun key => xs.filter (f · = key)) = xs := by
  generalize hitems : xs.map f = items at h
  induction h generalizing xs with
  | nil =>
      rw [List.map_eq_nil_iff.mp hitems]
      rfl
  | @opened keys items key h hnew ih =>
      have hnone : xs.filter (f · = key) = [] := by
        refine List.filter_eq_nil_iff.mpr fun x hx => ?_
        have hmem := h.mem_keys (f x) (hitems ▸ List.mem_map_of_mem hx)
        simp only [decide_eq_true_eq]
        rintro rfl
        exact hnew hmem
      rw [List.flatMap_append, List.flatMap_singleton, hnone, List.append_nil, ih hitems]
  | @grown keys items key h ih =>
      obtain ⟨ys, last, rfl, hys, hlast⟩ := List.map_eq_append_iff.mp hitems
      obtain ⟨y, rfl, rfl⟩ := List.map_eq_singleton_iff.mp hlast
      have hearlier : keys.flatMap (fun key => (ys ++ [y]).filter (f · = key)) =
          keys.flatMap fun key => ys.filter (f · = key) := by
        refine List.flatMap_congr fun key hkey => ?_
        have hother : f y ≠ key :=
          ((List.pairwise_append.mp h.nodup).2.2 key hkey (f y) (List.mem_singleton.mpr rfl)).symm
        rw [List.filter_append, List.filter_cons_of_neg (by simpa using hother), List.filter_nil,
          List.append_nil]
      have hbefore := ih hys
      rw [List.flatMap_append, List.flatMap_singleton] at hbefore
      rw [List.flatMap_append, List.flatMap_singleton, hearlier, List.filter_append,
        List.filter_cons_of_pos (by simp), List.filter_nil, ← List.append_assoc, hbefore]

end Grouped

/-! ## What is noted of connections -/

def Note.accepted? : Note → Option (ConnId × ByteArray)
  | .submitted conn frame (.done ()) => some (conn, frame)
  | _ => none

def Note.probed? : Note → Option (ConnId × Except Crash Bool)
  | .probed conn answer => some (conn, answer)
  | _ => none

def acceptedIn (notes : List Note) : List (ConnId × ByteArray) := notes.filterMap Note.accepted?

/-- The frames that one connection accepted, in this order. -/
def acceptedOn (conn : ConnId) (notes : List Note) : List ByteArray :=
  ((acceptedIn notes).filter (·.1 = conn)).map (·.2)

def probesIn (notes : List Note) : List (ConnId × Except Crash Bool) :=
  notes.filterMap Note.probed?

/-- No probe crashes, and a connection that was found dead is not found live again. -/
structure Steady (probes : List (ConnId × Except Crash Bool)) : Prop where
  calm : ∀ probe ∈ probes, ∃ live, probe.2 = .ok live
  final : probes.Pairwise fun earlier later =>
    earlier.1 = later.1 → earlier.2 = .ok false → later.2 ≠ .ok true

theorem acceptedIn_append (notes others : List Note) :
    acceptedIn (notes ++ others) = acceptedIn notes ++ acceptedIn others :=
  List.filterMap_append

theorem probesIn_append (notes others : List Note) :
    probesIn (notes ++ others) = probesIn notes ++ probesIn others :=
  List.filterMap_append

theorem acceptedIn_quiet {notes : List Note} (h : ∀ n ∈ notes, n.ofParcel = false) :
    acceptedIn notes = [] := by
  refine List.filterMap_eq_nil_iff.mpr fun n hn => ?_
  have := h n hn
  cases n <;> first | rfl | cases this

theorem acceptedIn_ofDelivery (notes : List Note) :
    acceptedIn (notes.filter Note.ofDelivery) = acceptedIn notes := by
  unfold acceptedIn
  rw [List.filterMap_filter]
  refine List.filterMap_congr fun n _ => ?_
  cases n <;> rfl

theorem Steady.of_append {probes others : List (ConnId × Except Crash Bool)}
    (h : Steady (probes ++ others)) : Steady probes :=
  ⟨fun probe hprobe => h.calm probe (List.mem_append_left _ hprobe),
    (List.pairwise_append.mp h.final).1⟩

namespace Forwarder

def conn? (w : Forwarder) : Option ConnId := w.failover.active.map (·.2)

/-- The connection that was put to use between two states. -/
def opened? (w w' : Forwarder) : Option ConnId :=
  match w.conn? with
  | none => w'.conn?
  | some _ => none

/-- The connections that a run puts to use, in this order. -/
def established (w : Forwarder) : List Event → List ConnId
  | [] => []
  | e :: es => (w.opened? (w.step e).1).toList ++ established (w.step e).1 es

/-! ## One step, as the connection in use sees it -/

/-- The phase agrees with the connection in use. -/
def Seated (w : Forwarder) : Prop :=
  match w.phase with
  | .seeking _ s => w.failover.Placed s
  | .submitting _ conn => w.conn? = some conn
  | _ => True

/-- What a step does to the connection in use. -/
inductive Change (w : Forwarder) : Forwarder × List Note → Prop where
  | kept {w' : Forwarder} {notes : List Note} (hconn : w'.conn? = w.conn?)
      (hended : w.phase.stance = .ended → w'.phase.stance = .ended)
      (hnone : acceptedIn notes = []) : Change w (w', notes)
  | accepted {w' : Forwarder} {conn : ConnId} {frame : ByteArray} (hconn : w.conn? = some conn)
      (hkept : w'.conn? = some conn) (hworks : w.phase.stance ≠ .ended) :
      Change w (w', [.submitted conn frame (.done ())])
  | retired {w' : Forwarder} {notes : List Note} {conn : ConnId} {answer : Except Crash Bool}
      (hconn : w.conn? = some conn) (hgone : w'.conn? = none)
      (hprobed : (conn, answer) ∈ probesIn notes) (hdead : answer ≠ .ok true)
      (hworks : w.phase.stance ≠ .ended) (hnone : acceptedIn notes = []) : Change w (w', notes)
  | settled {w' : Forwarder} {notes : List Note} {conn : ConnId} (hconn : w.conn? = none)
      (hfound : w'.conn? = some conn) (hlive : (conn, .ok true) ∈ probesIn notes)
      (hworks : w.phase.stance ≠ .ended) (hnone : acceptedIn notes = []) : Change w (w', notes)
  | closed {w' : Forwarder} {notes : List Note} (hgone : w'.conn? = none)
      (hended : w.phase.stance = .ended) (hended' : w'.phase.stance = .ended)
      (hnone : acceptedIn notes = []) : Change w (w', notes)

variable {w w' : Forwarder}

theorem seated_ended (h : w.phase.stance = .ended) : w.Seated := by
  unfold Seated
  split
  · next hphase => rw [hphase] at h; cases h
  · next hphase => rw [hphase] at h; cases h
  · trivial

/-- Whether a crash is handled or not, the connection in use stays. -/
theorem kept_caught (w : Forwarder) (a : Answers) (p : Parcel) (fault : Fault) :
    (w.caught a (w.dropped p fault)).1.Seated ∧
      (w.caught a (w.dropped p fault)).1.conn? = w.conn? ∧
      acceptedIn (w.caught a (w.dropped p fault)).2 = [] := by
  rcases w.caught_cases a (w.dropped p fault) with hcaught | ⟨crash, hcaught⟩
  · rw [hcaught]
    exact ⟨trivial, rfl, rfl⟩
  · rw [hcaught]
    exact ⟨seated_ended rfl, rfl, rfl⟩

theorem change_seek {p : Parcel} {s : Seek} (hphase : w.phase = .seeking p s)
    (hplaced : w.failover.Placed s) (a : Answers) :
    (w.seek p s a).1.Seated ∧ Change w (w.seek p s a) := by
  have hworks : w.phase.stance ≠ .ended := by rw [hphase]; nofun
  have hshift := Failover.shift_step w.failover w.counters w.now a s
  have hleads : (w.failover.step w.counters w.now a s).Leads := Failover.step_leads hplaced
  unfold seek
  split
  · refine ⟨seated_ended (stance_finish w), .kept rfl (fun h => absurd h hworks) ?_⟩
    exact acceptedIn_quiet (Failover.quiet_call rfl)
  · simp only
    generalize w.failover.step w.counters w.now a s = t at hshift hleads ⊢
    cases hshift with
    | kept keeps =>
        have hconn : t.failover.active.map (·.2) = w.conn? := by rw [keeps.failover]; rfl
        split
        · next next hnext =>
            exact ⟨hleads next hnext,
              .kept hconn (fun h => absurd h hworks) (acceptedIn_quiet keeps.quiet)⟩
        · next conn hfound => exact absurd hfound (keeps.unfound conn)
        · refine ⟨seated_ended rfl, .kept hconn (fun h => absurd h hworks) ?_⟩
          exact acceptedIn_quiet (Failover.quiet_concat_logged keeps.quiet)
    | @confirmed target conn hactive hlive =>
        have hconn : w.conn? = some conn := by rw [conn?, hactive]; rfl
        refine ⟨hconn, .kept rfl (fun h => absurd h hworks) rfl⟩
    | @retired target conn notes hactive hdead hprobed hquiet =>
        have hconn : w.conn? = some conn := by rw [conn?, hactive]; rfl
        refine ⟨hleads _ rfl, .retired hconn rfl ?_ hdead hworks ?_⟩
        · rw [Failover.retire, probesIn_append]
          exact List.mem_append_left _ (List.mem_filterMap.mpr ⟨_, hprobed, rfl⟩)
        · exact acceptedIn_quiet (Failover.quiet_concat_logged hquiet)
    | @settled v conn hlive =>
        have hconn : w.conn? = none := by rw [conn?, hplaced.unused nofun]; rfl
        refine ⟨rfl, .settled hconn rfl ?_ hworks rfl⟩
        rw [hlive]
        exact List.mem_cons_self
    | rotated =>
        refine ⟨hleads _ rfl, .kept ?_ (fun h => absurd h hworks) rfl⟩
        show w.failover.rotated.active.map (·.2) = w.conn?
        unfold Failover.rotated
        split <;> rfl

theorem change_submit {p : Parcel} {conn : ConnId} (hphase : w.phase = .submitting p conn)
    (hconn : w.conn? = some conn) (a : Answers) :
    (w.submit p conn a).1.Seated ∧ Change w (w.submit p conn a) := by
  have hworks : w.phase.stance ≠ .ended := by rw [hphase]; nofun
  unfold submit
  split
  · exact ⟨trivial, .kept rfl (fun h => absurd h hworks) rfl⟩
  · simp only
    split
    · next hdone => rw [hdone]; exact ⟨trivial, .accepted hconn hconn hworks⟩
    · next fault hrefused =>
        rw [hrefused]
        exact ⟨trivial, .kept rfl (fun h => absurd h hworks) rfl⟩
    · next crash hcrashed =>
        rw [hcrashed]
        obtain ⟨hseated, hsame, hnone⟩ := w.kept_caught a p (crash.asFault "delivery")
        exact ⟨hseated, .kept hsame (fun h => absurd h hworks) hnone⟩

theorem change_confirm {p : Parcel} {conn : ConnId} (hphase : w.phase = .confirming p conn)
    (a : Answers) : (w.confirm p conn a).1.Seated ∧ Change w (w.confirm p conn a) := by
  have hworks : w.phase.stance ≠ .ended := by rw [hphase]; nofun
  unfold confirm
  simp only
  split
  · exact ⟨trivial, .kept rfl (fun h => absurd h hworks) rfl⟩
  · exact ⟨trivial, .kept rfl (fun h => absurd h hworks) rfl⟩
  · next crash _ =>
      obtain ⟨hseated, hsame, hnone⟩ := w.kept_caught a p (crash.asFault "delivery")
      exact ⟨hseated, .kept hsame (fun h => absurd h hworks) hnone⟩

theorem change_work (h : w.Seated) (a : Answers) :
    (w.work a).1.Seated ∧ Change w (w.work a) := by
  unfold Forwarder.work
  split
  · exact ⟨h, .kept rfl id rfl⟩
  · next hphase =>
      have hworks : w.phase.stance ≠ .ended := by rw [hphase]; nofun
      unfold choose
      split
      · exact ⟨seated_ended (stance_finish w), .kept rfl (fun h => absurd h hworks) rfl⟩
      · split
        · exact ⟨Failover.placed_verifying, .kept rfl (fun h => absurd h hworks) rfl⟩
        · exact ⟨trivial, .kept rfl (fun h => absurd h hworks) rfl⟩
  · next hphase =>
      have hworks : w.phase.stance ≠ .ended := by rw [hphase]; nofun
      unfold await
      split
      · exact ⟨seated_ended (stance_finish w), .kept rfl (fun h => absurd h hworks) rfl⟩
      · split
        · exact ⟨Failover.placed_verifying, .kept rfl (fun h => absurd h hworks) rfl⟩
        · exact ⟨h, .kept rfl id rfl⟩
  · next hphase =>
      unfold Seated at h
      rw [hphase] at h
      exact change_seek hphase h a
  · next hphase =>
      unfold Seated at h
      rw [hphase] at h
      exact change_submit hphase h a
  · next hphase => exact change_confirm hphase a
  · next hphase => exact ⟨trivial, .closed rfl (stance_of_phase hphase) rfl rfl⟩
  · exact ⟨h, .kept rfl id rfl⟩

theorem change_step (h : w.Seated) (e : Event) :
    (w.step e).1.Seated ∧ Change w (w.step e) := by
  cases e with
  | start =>
      simp only [step, begin]
      split
      · next hphase =>
          have hworks : w.phase.stance ≠ .ended := by rw [hphase]; decide
          exact ⟨trivial, .kept rfl (fun h => absurd h hworks) rfl⟩
      · exact ⟨h, .kept rfl id rfl⟩
  | offer m =>
      refine ⟨h, .kept rfl id ?_⟩
      show acceptedIn (w.offer m).2 = []
      rw [← acceptedIn_ofDelivery, ofDelivery_offer]
      rfl
  | stop =>
      simp only [step, signalStop]
      split <;> exact ⟨h, .kept rfl id rfl⟩
  | orphan =>
      simp only [step, Forwarder.orphan]
      split <;> exact ⟨h, .kept rfl id rfl⟩
  | elapse moment => exact ⟨h, .kept rfl id rfl⟩
  | work a => exact change_work h a

/-! ## The invariant -/

/-- Accepted frames come in groups, one for each connection that was put to use, and every such
connection that is not in use was found dead. -/
structure Connected (notes : List Note) (w : Forwarder) (conns : List ConnId) : Prop where
  seated : w.Seated
  grouped : Grouped conns ((acceptedIn notes).map (·.1))
  latest : ∀ conn, w.conn? = some conn → ∃ earlier, conns = earlier ++ [conn]
  lapsed : w.phase.stance ≠ .ended → ∀ conn ∈ conns,
    w.conn? = some conn ∨ (conn, .ok false) ∈ probesIn notes

variable {notes : List Note} {conns : List ConnId}

theorem opened?_of_some {conn : ConnId} (h : w.conn? = some conn) : w.opened? w' = none := by
  rw [opened?, h]

theorem opened?_of_none (h : w'.conn? = none) : w.opened? w' = none := by
  unfold opened?
  split
  · exact h
  · rfl

theorem opened?_of_same (h : w'.conn? = w.conn?) : w.opened? w' = none := by
  cases hconn : w.conn? with
  | none => exact opened?_of_none (h.trans hconn)
  | some conn => exact opened?_of_some hconn

theorem Connected.grouped_append (h : Connected notes w conns) {others : List Note}
    (hnone : acceptedIn others = []) :
    Grouped conns ((acceptedIn (notes ++ others)).map (·.1)) := by
  rw [acceptedIn_append, hnone, List.append_nil]
  exact h.grouped

/-- A connection that was in use before was found dead, so one that is found live is another. -/
theorem Connected.unseen (h : Connected notes w conns) (hworks : w.phase.stance ≠ .ended)
    (hconn : w.conn? = none) {others : List Note} {conn : ConnId}
    (hlive : (conn, .ok true) ∈ probesIn others)
    (hsteady : Steady (probesIn (notes ++ others))) : conn ∉ conns := by
  intro hmem
  rcases h.lapsed hworks conn hmem with hcase | hcase
  · rw [hconn] at hcase
    cases hcase
  · have hfinal := hsteady.final
    rw [probesIn_append] at hfinal
    exact (List.pairwise_append.mp hfinal).2.2 _ hcase _ hlive rfl rfl rfl

theorem Connected.step (h : Connected notes w conns) (e : Event)
    (hsteady : Steady (probesIn (notes ++ (w.step e).2))) :
    Connected (notes ++ (w.step e).2) (w.step e).1
      (conns ++ (w.opened? (w.step e).1).toList) := by
  obtain ⟨hseated, hchange⟩ := change_step h.seated e
  have hearlier : ∀ conn, (conn, .ok false) ∈ probesIn notes →
      (conn, .ok false) ∈ probesIn (notes ++ (w.step e).2) := by
    intro conn hmem
    rw [probesIn_append]
    exact List.mem_append_left _ hmem
  generalize w.step e = r at hseated hchange hsteady hearlier ⊢
  cases hchange with
  | @kept w' others hconn hended hnone =>
      rw [opened?_of_same hconn, Option.toList_none, List.append_nil]
      refine ⟨hseated, h.grouped_append hnone, ?_, ?_⟩
      · intro conn hnow
        exact h.latest conn (hconn.symm.trans hnow)
      · intro hworks conn hmem
        rcases h.lapsed (fun hwas => hworks (hended hwas)) conn hmem with hcase | hcase
        · exact Or.inl (hconn.trans hcase)
        · exact Or.inr (hearlier conn hcase)
  | @accepted w' conn frame hconn hkept hworks =>
      obtain ⟨earlier, rfl⟩ := h.latest conn hconn
      rw [opened?_of_some hconn, Option.toList_none, List.append_nil]
      refine ⟨hseated, ?_, ?_, ?_⟩
      · rw [acceptedIn_append, List.map_append]
        exact h.grouped.grown
      · intro conn' hnow
        exact h.latest conn' (hconn.trans (hkept.symm.trans hnow))
      · intro _ conn' hmem
        rcases h.lapsed hworks conn' hmem with hcase | hcase
        · exact Or.inl (hkept.trans (hconn.symm.trans hcase))
        · exact Or.inr (hearlier conn' hcase)
  | @retired w' others conn answer hconn hgone hprobed hdead hworks hnone =>
      rw [opened?_of_some hconn, Option.toList_none, List.append_nil]
      have hprobe : (conn, answer) ∈ probesIn (notes ++ others) := by
        rw [probesIn_append]
        exact List.mem_append_right _ hprobed
      have hfalse : (conn, .ok false) ∈ probesIn (notes ++ others) := by
        obtain ⟨live, rfl⟩ : ∃ live, answer = .ok live := hsteady.calm _ hprobe
        cases live with
        | false => exact hprobe
        | true => exact absurd rfl hdead
      refine ⟨hseated, h.grouped_append hnone, ?_, ?_⟩
      · intro conn' hnow
        rw [hgone] at hnow
        cases hnow
      · intro _ conn' hmem
        refine Or.inr ?_
        rcases h.lapsed hworks conn' hmem with hcase | hcase
        · obtain rfl := Option.some.inj (hconn.symm.trans hcase)
          exact hfalse
        · exact hearlier conn' hcase
  | @settled w' others conn hconn hfound hlive hworks hnone =>
      have hopened : w.opened? w' = some conn := by rw [opened?, hconn, hfound]
      have hnew : conn ∉ conns := h.unseen hworks hconn hlive hsteady
      rw [hopened, Option.toList_some]
      refine ⟨hseated, (h.grouped_append hnone).opened hnew, ?_, ?_⟩
      · intro conn' hnow
        obtain rfl := Option.some.inj (hfound.symm.trans hnow)
        exact ⟨conns, rfl⟩
      · intro _ conn' hmem
        rcases List.mem_append.mp hmem with hmem | hmem
        · rcases h.lapsed hworks conn' hmem with hcase | hcase
          · rw [hconn] at hcase
            cases hcase
          · exact Or.inr (hearlier conn' hcase)
        · rw [List.mem_singleton.mp hmem]
          exact Or.inl hfound
  | @closed w' others hgone hended hended' hnone =>
      rw [opened?_of_none hgone, Option.toList_none, List.append_nil]
      refine ⟨hseated, h.grouped_append hnone, ?_, fun hworks => absurd hended' hworks⟩
      intro conn' hnow
      rw [hgone] at hnow
      cases hnow

theorem Connected.run (h : Connected notes w conns) (es : List Event)
    (hsteady : Steady (probesIn (notes ++ (w.run es).2))) :
    Connected (notes ++ (w.run es).2) (w.run es).1 (conns ++ w.established es) := by
  induction es generalizing notes w conns with
  | nil => simpa [Forwarder.run, established] using h
  | cons e es ih =>
      have hnotes : notes ++ (w.run (e :: es)).2 =
          (notes ++ (w.step e).2) ++ ((w.step e).1.run es).2 := (List.append_assoc _ _ _).symm
      rw [hnotes] at hsteady ⊢
      have hstep : Steady (probesIn (notes ++ (w.step e).2)) := by
        rw [probesIn_append] at hsteady
        exact hsteady.of_append
      rw [established, ← List.append_assoc]
      exact ih (h.step e hstep) hsteady

end Forwarder

/-! ## What was accepted, block by block -/

namespace Block

/-- The acceptances among the attempts of a block: the parcel, and the connections that accepted
its frame. -/
def carried (b : Block) : List (ConnId × Parcel) :=
  (acceptedIn b.notes).map fun accepted => (accepted.1, b.parcel)

variable {b : Block}

theorem acceptedIn_attempt (p : Parcel) (a : Attempt) : acceptedIn (a.notes p) = [] ∨
    ∃ conn frame, a.frame? = some frame ∧ acceptedIn (a.notes p) = [(conn, frame)] := by
  cases a with
  | unwritten d => exact Or.inl rfl
  | submitted conn frame answer ending =>
      cases answer with
      | done _ => exact Or.inr ⟨conn, frame, rfl, by cases ending <;> rfl⟩
      | refused fault => exact Or.inl (by cases ending <;> rfl)
      | crashed crash => exact Or.inl (by cases ending <;> rfl)

theorem acceptedIn_notes (b : Block) :
    acceptedIn b.notes = b.attempts.flatMap fun a => acceptedIn (a.notes b.parcel) :=
  List.filterMap_flatMap

theorem length_accepted_le (b : Block) : (acceptedIn b.notes).length ≤ b.attempts.length := by
  rw [acceptedIn_notes]
  induction b.attempts with
  | nil => exact Nat.le_refl 0
  | cons a tries ih =>
      have hone : (acceptedIn (a.notes b.parcel)).length ≤ 1 := by
        rcases acceptedIn_attempt b.parcel a with hnone | ⟨conn, frame, -, hsome⟩
        · rw [hnone]
          exact Nat.zero_le 1
        · rw [hsome]
          exact Nat.le_refl 1
      rw [List.flatMap_cons, List.length_append, List.length_cons]
      omega

/-- What was accepted is the frame of the parcel. -/
theorem Sound.accepted (h : b.Sound) {accepted : ConnId × ByteArray}
    (hmem : accepted ∈ acceptedIn b.notes) : Forwarder.frameOf b.parcel = .ok accepted.2 := by
  rw [acceptedIn_notes] at hmem
  obtain ⟨a, ha, hmem⟩ := List.mem_flatMap.mp hmem
  rcases acceptedIn_attempt b.parcel a with hnone | ⟨conn, frame, hframe, hsome⟩
  · rw [hnone] at hmem
    cases hmem
  · rw [hsome] at hmem
    rw [List.mem_singleton.mp hmem]
    exact h.frames a ha frame hframe

/-- All attempts but one found the connection dead. -/
theorem Sound.length_le (h : b.Sound) :
    b.attempts.length ≤ 1 + (attemptsIn b.notes).count (b.parcel, .dead) := by
  have hdead : ∀ tries : List Attempt, (∀ a ∈ tries, a.ending? = some .dead) →
      tries.length ≤ (tries.flatMap fun a => (a.ending?.map (b.parcel, ·)).toList).count
        (b.parcel, Delivery.dead) := by
    intro tries hall
    induction tries with
    | nil => exact Nat.le_refl 0
    | cons a tries ih =>
        have htail := ih fun a' ha' => hall a' (List.mem_cons_of_mem _ ha')
        rw [List.flatMap_cons, hall a List.mem_cons_self, List.count_append, List.length_cons]
        simp only [Option.map_some, Option.toList_some, List.count_singleton_self]
        omega
  have hsplit := List.dropLast_concat_getLast h.begun
  have hearlier := hdead _ h.dead
  rw [attemptsIn_block, ← hsplit, List.length_append, List.length_singleton, List.flatMap_append,
    List.count_append]
  omega

/-- The acceptances of a run, in this order. -/
def trail (blocks : List Block) : List (ConnId × Parcel) := blocks.flatMap carried

def trailOn (conn : ConnId) (blocks : List Block) : List Parcel :=
  ((trail blocks).filter (·.1 = conn)).map (·.2)

variable {blocks : List Block}

theorem parcel_of_mem_carried {x : ConnId × Parcel} (h : x ∈ b.carried) : x.2 = b.parcel := by
  obtain ⟨accepted, -, rfl⟩ := List.mem_map.mp h
  rfl

theorem parcel_of_mem_trail {x : ConnId × Parcel} (h : x ∈ trail blocks) :
    x.2 ∈ blocks.map Block.parcel := by
  obtain ⟨b, hb, hx⟩ := List.mem_flatMap.mp h
  rw [parcel_of_mem_carried hx]
  exact List.mem_map_of_mem hb

theorem trail_accepted (h : ∀ b ∈ blocks, b.Sound) :
    List.Forall₂ (fun x accepted => x.1 = accepted.1 ∧ Forwarder.frameOf x.2 = .ok accepted.2)
      (trail blocks) (acceptedIn (blocks.flatMap Block.notes)) := by
  induction blocks with
  | nil => exact .nil
  | cons b blocks ih =>
      have hrest := ih fun b' hb' => h b' (List.mem_cons_of_mem _ hb')
      rw [trail, List.flatMap_cons, List.flatMap_cons, acceptedIn_append]
      refine List.rel_append ?_ hrest
      rw [carried, List.forall₂_map_left_iff, List.forall₂_same]
      exact fun accepted hmem => ⟨rfl, (h b List.mem_cons_self).accepted hmem⟩

/-- Parcels are accepted in the order of their numbers, one and the same several times in a row. -/
theorem trail_sorted (hsorted : (blocks.map Block.parcel).Pairwise (·.serial < ·.serial)) :
    ((trail blocks).map (·.2)).Pairwise fun p q => p.serial < q.serial ∨ p = q := by
  rw [List.pairwise_map, trail, List.pairwise_flatMap]
  refine ⟨fun b _ => ?_, ?_⟩
  · refine List.pairwise_of_forall_mem_list fun x hx y hy => Or.inr ?_
    rw [parcel_of_mem_carried hx, parcel_of_mem_carried hy]
  · refine (List.pairwise_map.mp hsorted).imp fun {b b'} hlt x hx y hy => Or.inl ?_
    rw [parcel_of_mem_carried hx, parcel_of_mem_carried hy]
    exact hlt

/-- A parcel is accepted at most once more often than it found a connection dead. -/
theorem count_trail_le (h : ∀ b ∈ blocks, b.Sound)
    (hsorted : (blocks.map Block.parcel).Pairwise (·.serial < ·.serial)) (p : Parcel) :
    ((trail blocks).map (·.2)).count p ≤
      1 + (attemptsIn (blocks.flatMap Block.notes)).count (p, .dead) := by
  induction blocks with
  | nil => exact Nat.zero_le _
  | cons b blocks ih =>
      rw [List.map_cons, List.pairwise_cons] at hsorted
      have hrest := ih (fun b' hb' => h b' (List.mem_cons_of_mem _ hb')) hsorted.2
      have hdeads : (attemptsIn ((b :: blocks).flatMap Block.notes)).count (p, .dead) =
          (attemptsIn b.notes).count (p, .dead) +
            (attemptsIn (blocks.flatMap Block.notes)).count (p, .dead) := by
        rw [List.flatMap_cons, attemptsIn, List.filterMap_append, List.count_append]
        rfl
      have hcount : ((trail (b :: blocks)).map (·.2)).count p =
          (b.carried.map (·.2)).count p + ((trail blocks).map (·.2)).count p := by
        rw [trail, List.flatMap_cons, List.map_append, List.count_append]
        rfl
      rw [hdeads, hcount]
      by_cases hp : b.parcel = p
      · subst hp
        have hnone : ((trail blocks).map (·.2)).count b.parcel = 0 := by
          refine List.count_eq_zero.mpr fun hmem => ?_
          obtain ⟨x, hx, heq⟩ := List.mem_map.mp hmem
          have hlt := hsorted.1 x.2 (parcel_of_mem_trail hx)
          rw [heq] at hlt
          exact Nat.lt_irrefl _ hlt
        have hhead : (b.carried.map (·.2)).count b.parcel ≤ b.attempts.length := by
          refine Nat.le_trans List.count_le_length ?_
          rw [List.length_map, carried, List.length_map]
          exact length_accepted_le b
        have hlength := (h b List.mem_cons_self).length_le
        omega
      · have hnone : (b.carried.map (·.2)).count p = 0 := by
          refine List.count_eq_zero.mpr fun hmem => ?_
          obtain ⟨x, hx, heq⟩ := List.mem_map.mp hmem
          exact hp ((parcel_of_mem_carried hx).symm.trans heq)
        omega

end Block

/-! ## What the peers apply -/

open Ingest Wire

/-- What one peer applies of what was accepted on its connection: a beginning of it. -/
theorem applied_on {notes : List Note} {blocks : List Block}
    (htold : notes.filter Note.ofDelivery = blocks.flatMap Block.notes)
    (hsound : ∀ b ∈ blocks, b.Sound) {expected : Option Credentials} {c : Credentials}
    (hexpected : expected = none ∨ expected = some c) {handshake : ByteArray}
    (hhandshake : (Packet.auth c).frame = .ok handshake) {conn : ConnId}
    {chunks : List ByteArray} {n : Nat}
    (hcut : joined chunks = (handshake ++ joined (acceptedOn conn notes)).extract 0 n) :
    ∃ ps, ps <+: Block.trailOn conn blocks ∧
      (Session.ofChunks expected chunks).applied.toList =
        ps.map fun p => ⟨c.group, p.mutation⟩ := by
  have haccepted := Block.trail_accepted hsound
  rw [← htold, acceptedIn_ofDelivery] at haccepted
  have hframes : List.Forall₂ (fun m frame => (Packet.merge m).frame = .ok frame)
      ((Block.trailOn conn blocks).map Parcel.mutation) (acceptedOn conn notes) := by
    rw [acceptedOn, Block.trailOn, List.map_map, List.forall₂_map_left_iff, List.forall₂_map_right_iff]
    refine (List.rel_filter ?_ haccepted).imp fun _ _ hpair => hpair.2
    rintro x accepted ⟨hsame, -⟩
    simp only [hsame]
  refine ⟨(Block.trailOn conn blocks).take (wholeWithin n (handshake :: acceptedOn conn notes) - 1),
    List.take_prefix _ _, ?_⟩
  rw [Session.applied_of_cut hexpected hhandshake hframes hcut, ← List.map_take, List.map_map]
  rfl

/-- What the peers apply, one after another, is some of what was accepted on each connection. -/
theorem applied_over {notes : List Note} {blocks : List Block}
    (htold : notes.filter Note.ofDelivery = blocks.flatMap Block.notes)
    (hsound : ∀ b ∈ blocks, b.Sound) {expected : ConnId → Option Credentials} {c : Credentials}
    (hexpected : ∀ conn, expected conn = none ∨ expected conn = some c) {handshake : ByteArray}
    (hhandshake : (Packet.auth c).frame = .ok handshake) {conns : List ConnId}
    {received : ConnId → List ByteArray} {cutoff : ConnId → Nat}
    (hreceived : ∀ conn ∈ conns, joined (received conn) =
      (handshake ++ joined (acceptedOn conn notes)).extract 0 (cutoff conn)) :
    ∃ ps : List Parcel,
      conns.flatMap (fun conn =>
          (Session.ofChunks (expected conn) (received conn)).applied.toList) =
        ps.map (fun p => ⟨c.group, p.mutation⟩) ∧
      ps.Sublist (conns.flatMap fun conn => Block.trailOn conn blocks) := by
  induction conns with
  | nil => exact ⟨[], rfl, .slnil⟩
  | cons conn conns ih =>
      obtain ⟨first, hprefix, hfirst⟩ := applied_on htold hsound (hexpected conn) hhandshake
        (hreceived conn List.mem_cons_self)
      obtain ⟨ps, hothers, hsublist⟩ := ih fun conn' hmem =>
        hreceived conn' (List.mem_cons_of_mem _ hmem)
      refine ⟨first ++ ps, ?_, ?_⟩
      · rw [List.flatMap_cons, hfirst, hothers, List.map_append]
      · rw [List.flatMap_cons]
        exact hprefix.sublist.append hsublist

/-- What was accepted, connection after connection, is what was accepted in the course of time. -/
theorem trail_groups {notes : List Note} {w : Forwarder} {conns : List ConnId}
    {blocks : List Block} (h : Forwarder.Connected notes w conns)
    (htold : notes.filter Note.ofDelivery = blocks.flatMap Block.notes)
    (hsound : ∀ b ∈ blocks, b.Sound) :
    (conns.flatMap fun conn => Block.trailOn conn blocks) =
      (Block.trail blocks).map (·.2) := by
  have haccepted := Block.trail_accepted hsound
  rw [← htold, acceptedIn_ofDelivery] at haccepted
  have hsame : (Block.trail blocks).map (·.1) = (acceptedIn notes).map (·.1) := by
    rw [← List.forall₂_eq_eq_eq, List.forall₂_map_left_iff, List.forall₂_map_right_iff]
    exact haccepted.imp fun _ _ hpair => hpair.1
  have hgrouped := h.grouped
  rw [← hsame] at hgrouped
  unfold Block.trailOn
  rw [← List.map_flatMap, hgrouped.flatMap_filter]

theorem Forwarder.connected_start {link : String} {targets : List String} {port : UInt16}
    {c : Credentials} {pacing : Pacing} {f : Failover}
    (hstart : Failover.start link targets port c pacing = .ok f) (capacity : Nat) :
    Forwarder.Connected [] (Forwarder.ofParts f (Backlog.ofCapacity capacity)) [] := by
  have hidle : f.active = none := by
    unfold Failover.start at hstart
    split at hstart
    · cases hstart
    · cases hstart
      rfl
  refine ⟨trivial, .nil, fun conn hconn => ?_, nofun⟩
  have hnone : (Forwarder.ofParts f (Backlog.ofCapacity capacity)).conn? = none := by
    show f.active.map (·.2) = none
    rw [hidle]
    rfl
  rw [hnone] at hconn
  cases hconn

/-- Connections may be cut off after any number of bytes, and their bytes may arrive in any chunks:
what the peers apply, over the connections in the order in which these were put to use, never goes
back in the order of the offers. It is only what was offered and never evicted, in the name of the
link's group, each mutation at most once more often than it was found to be on a dead
connection. -/
theorem applied_in_offer_order {link : String} {targets : List String} {port : UInt16}
    {c : Credentials} {pacing : Pacing} {f : Failover}
    (hstart : Failover.start link targets port c pacing = .ok f) (capacity : Nat)
    (es later : List Event) {handshake : ByteArray}
    (hhandshake : (Packet.auth c).frame = .ok handshake) {expected : ConnId → Option Credentials}
    (hexpected : ∀ conn, expected conn = none ∨ expected conn = some c)
    (received : ConnId → List ByteArray) (cutoff : ConnId → Nat) :
    let start := Forwarder.ofParts f (Backlog.ofCapacity capacity)
    let notes := (start.run es).2
    let conns := start.established es
    Steady (probesIn notes) →
    (∀ conn ∈ conns, joined (received conn) =
      (handshake ++ joined (acceptedOn conn notes)).extract 0 (cutoff conn)) →
    ∃ ps : List Parcel,
      conns.flatMap (fun conn =>
          (Session.ofChunks (expected conn) (received conn)).applied.toList) =
        ps.map (fun p => ⟨c.group, p.mutation⟩) ∧
      ps.Pairwise (fun p q => p.serial < q.serial ∨ p = q) ∧
      (∀ p ∈ ps, p ∈ numbered 0 (offersIn es) ∧
        p ∉ evictedIn (start.run (es ++ later)).2) ∧
      ∀ p, ps.count p ≤ 1 + (attemptsIn notes).count (p, .dead) := by
  intro start notes conns hsteady hreceived
  obtain ⟨closed, current, hchronicle⟩ := (Forwarder.chronicle_start f capacity).run es
  rw [List.nil_append] at hchronicle
  obtain ⟨blocks, htold, hsound, -, hbegun⟩ := hchronicle.begun
  have hsorted : (blocks.map Block.parcel).Pairwise (·.serial < ·.serial) :=
    ((List.pairwise_append.mp hchronicle.custody.kept_sorted).1).sublist hbegun.sublist
  have hconnected : Forwarder.Connected notes (start.run es).1 conns :=
    (Forwarder.connected_start hstart capacity).run es hsteady
  obtain ⟨ps, happlied, hsublist⟩ :=
    applied_over htold hsound hexpected hhandshake hreceived
  rw [trail_groups hconnected htold hsound] at hsublist
  refine ⟨ps, happlied, (Block.trail_sorted hsorted).sublist hsublist, fun p hp => ?_,
    fun p => ?_⟩
  · obtain ⟨x, hx, rfl⟩ := List.mem_map.mp (hsublist.subset hp)
    have hbegun' := hbegun.subset (Block.parcel_of_mem_trail hx)
    have hkept : x.2 ∈ keptIn notes := by
      rw [hchronicle.custody.kept]
      exact List.mem_append_left _ hbegun'
    have hkept' := (hchronicle.custody.prefix_keptIn later).subset hbegun'
    have hrun : notes ++ ((start.run es).1.run later).2 = (start.run (es ++ later)).2 := by
      rw [Forwarder.run_append]
    have hoffered : admittedIn notes = numbered 0 (offersIn es) :=
      (Forwarder.admittedIn_run start es).2
    rw [hrun] at hkept'
    rw [← hoffered]
    exact ⟨(List.mem_filter.mp hkept).1, by simpa using (List.mem_filter.mp hkept').2⟩
  · refine Nat.le_trans (hsublist.count_le p) ?_
    rw [← attemptsIn_ofDelivery, htold]
    exact Block.count_trail_le hsound hsorted p

theorem applied_in_offer_order_reconnected :
    let c : Credentials := ⟨"tokyo", "pass"⟩
    let dead : Event := .work { probe := .ok false }
    let es : List Event := [.start, .offer ⟨"orders", "k".toUTF8, "v".toUTF8⟩, .work {}, .work {},
      .work {}, .work {}, .work { dial := .done (some 7) }, .work {}, .work {}, dead, .work {},
      dead, .work {}, .work {}, .work { dial := .done (some 8) }, .work {}, .work {}, .work {}]
    ∃ f handshake, Failover.start "link" ["h"] 5701 c Schedule.standard.pacing = .ok f ∧
      (Packet.auth c).frame = .ok handshake ∧
      let start := Forwarder.ofParts f (Backlog.ofCapacity 10)
      let stream := fun conn => handshake ++ joined (acceptedOn conn (start.run es).2)
      start.established es = [7, 8] ∧
      ∃ ps : List Parcel,
        [7, 8].flatMap (fun conn =>
            (Session.ofChunks (some c) [(stream conn).extract 0 43]).applied.toList) =
          ps.map (fun p => ⟨c.group, p.mutation⟩) ∧
        ∀ p, ps.count p ≤ 1 + (attemptsIn (start.run es).2).count (p, .dead) := by
  intro c dead es
  obtain ⟨f, hf⟩ : ∃ f, Failover.start "link" ["h"] 5701 c Schedule.standard.pacing = .ok f :=
    ⟨_, rfl⟩
  obtain ⟨handshake, hhandshake⟩ : ∃ handshake, (Packet.auth c).frame = .ok handshake := ⟨_, rfl⟩
  refine ⟨f, handshake, hf, hhandshake, ?_⟩
  intro start stream
  have hconns : start.established es = [7, 8] := by
    cases hf
    decide +kernel
  have hprobes : probesIn (start.run es).2 =
      [(7, .ok true), (7, .ok false), (7, .ok false), (8, .ok true), (8, .ok true)] := by
    cases hf
    decide +kernel
  have hsteady : Steady (probesIn (start.run es).2) := by
    rw [hprobes]
    exact ⟨by simp, by simp⟩
  obtain ⟨ps, happlied, -, -, hcount⟩ := applied_in_offer_order hf 10 es [] hhandshake
    (fun _ => Or.inr rfl) (fun conn => [(stream conn).extract 0 43]) (fun _ => 43) hsteady
    (fun conn _ => ByteArray.append_empty)
  rw [show (Forwarder.ofParts f (Backlog.ofCapacity 10)).established es = [7, 8] from hconns]
    at happlied
  exact ⟨hconns, ps, happlied, hcount⟩

end ClusterRelay
