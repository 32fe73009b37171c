import ClusterRelay.Proofs.Service
import ClusterRelay.Proofs.TargetTexts

/-!
# Where links dial to

The check of settings reads every target with the node's own port, and so does every visit. What a
target says for itself is sound once it has been read: a host is never empty, and a port that is
named is never zero. A port that is left out is another matter. Then the own port stands in, nobody
looks at it, and a node whose own port is zero passes the check and dials port zero.

So an endpoint that is dialed has port zero just if the own port is zero and the target names none.
-/

namespace ClusterRelay

namespace Endpoint

variable {own : UInt16} {target : String} {e : Endpoint}

/-- The target has a port of its own. -/
def NamesPort (target : String) : Prop :=
  ∃ host text, Parts (Text.trimmed target.toList) host (some text)

theorem sound_of_names (h : Names own target e) :
    e.host ≠ "" ∧ (e.port = 0 ↔ own = 0 ∧ ¬ NamesPort target) := by
  obtain ⟨inner, hstrips, hspelled⟩ := h
  obtain ⟨port?, hparts, hne, hport⟩ := spelled_iff.mp hspelled
  rw [← hstrips.trimmed_eq] at hparts
  refine ⟨hne, ?_⟩
  cases port? with
  | none =>
      have hunnamed : ¬ NamesPort target := by
        rintro ⟨host, text, hnamed⟩
        have hsame := (split_eq_ok_iff.mpr hparts).symm.trans (split_eq_ok_iff.mpr hnamed)
        cases hsame
      have hown : e.port = own := hport
      rw [hown]
      exact ⟨fun hzero => ⟨hzero, hunnamed⟩, And.left⟩
  | some text =>
      have hnamed : NamesPort target := ⟨_, text, hparts⟩
      constructor
      · intro hzero
        exact absurd hzero hport.2
      · rintro ⟨-, hunnamed⟩
        exact absurd hnamed hunnamed

end Endpoint

/-- With settings that pass the check every target names an endpoint with a host, and with a port
from 1 to 65535 unless the target leaves the port out and the node's own port is zero. The links
that are started dial no other endpoints, whatever happens to them. -/
theorem ports_of_checked_targets (n : NodeSettings) (hcheck : n.check = .ok ()) :
    (∀ s ∈ n.links, ∀ target ∈ s.targets, ∃ e, Endpoint.ofTarget target n.port = .ok e ∧
      e.host ≠ "" ∧ (e.port = 0 ↔ n.port = 0 ∧ ¬ Endpoint.NamesPort target)) ∧
    ∀ r lines, Relay.start n = .done (r, lines) → r.links.length = n.links.length ∧
      ∀ l ∈ r.links, ∀ es endpoint credentials,
        .dial endpoint credentials ∈ callsIn (l.run es).2 →
          (∃ s ∈ n.links, ∃ target ∈ s.targets,
            Endpoint.ofTarget target n.port = .ok endpoint) ∧
          endpoint.host ≠ "" ∧ (n.port ≠ 0 → endpoint.port ≠ 0) := by
  obtain ⟨-, hlinks, -⟩ := NodeSettings.check_eq_ok_iff.mp hcheck
  constructor
  · intro s hs target htarget
    obtain ⟨e, he⟩ := (hlinks s hs).2.endpoints target htarget
    exact ⟨e, he, Endpoint.sound_of_names (Endpoint.ofTarget_eq_ok_iff.mp he)⟩
  · intro r lines hstart
    have hbegun := (Relay.links_of_start hstart).1
    refine ⟨by rw [hbegun, List.length_map], ?_⟩
    intro l hl es endpoint credentials hdial
    rw [hbegun] at hl
    obtain ⟨s, hs, rfl⟩ := List.mem_map.mp hl
    obtain ⟨-, target, htarget, he⟩ :=
      Link.dialed_run (Link.serves_begun s n.port n.capacity.toNat) es hdial
    obtain ⟨hhost, hport⟩ := Endpoint.sound_of_names (Endpoint.ofTarget_eq_ok_iff.mp he)
    refine ⟨⟨s, hs, target, htarget, he⟩, hhost, ?_⟩
    intro hown hzero
    exact hown (hport.mp hzero).1

/-- Two targets of a node whose own port is zero: one names a port, the other inherits the zero and
is dialed at it. -/
theorem ports_of_checked_targets_inherited :
    let n : NodeSettings :=
      ⟨"node-a", 0, 100000, [⟨"tokyo", ⟨"tokyo", "pass"⟩, ["h1", "h2:5702"], 10, 1000, .fixed⟩]⟩
    let work : LinkEvent := .forwarder (.work {})
    let es := [.offer ⟨"orders", "k".toUTF8, "v".toUTF8⟩, work, work, work, work, work]
    n.check = .ok () ∧
      (∃ e, Endpoint.ofTarget "h1" n.port = .ok e ∧ e.port = 0 ∧
        ¬ Endpoint.NamesPort "h1") ∧
      (∃ e, Endpoint.ofTarget "h2:5702" n.port = .ok e ∧ e.port = 5702 ∧
        Endpoint.NamesPort "h2:5702") ∧
      ∃ r lines l, Relay.start n = .done (r, lines) ∧ r.links = [l] ∧
        .dial ⟨"h1", 0⟩ ⟨"tokyo", "pass"⟩ ∈ callsIn (l.run es).2 ∧
        ∃ s ∈ n.links, ∃ target ∈ s.targets, Endpoint.ofTarget target n.port = .ok ⟨"h1", 0⟩ := by
  intro n work es
  have hcheck : n.check = .ok () := by decide
  obtain ⟨htargets, hstarted⟩ := ports_of_checked_targets n hcheck
  obtain ⟨e₁, he₁, -, hport₁⟩ := htargets _ List.mem_cons_self "h1" (by decide)
  obtain ⟨e₂, he₂, -, hport₂⟩ := htargets _ List.mem_cons_self "h2:5702" (by decide)
  cases he₁
  cases he₂
  obtain ⟨lines, hstart⟩ := Relay.start_of_check hcheck (by decide)
  obtain ⟨-, hdials⟩ := hstarted _ lines hstart
  have hdial : .dial ⟨"h1", 0⟩ ⟨"tokyo", "pass"⟩ ∈
      callsIn ((Link.begun ⟨"tokyo", ⟨"tokyo", "pass"⟩, ["h1", "h2:5702"], 10, 1000, .fixed⟩ 0
        100000).run es).2 := List.mem_singleton.mpr rfl
  refine ⟨hcheck, ⟨_, rfl, rfl, (hport₁.mp rfl).2⟩, ⟨_, rfl, rfl, ?_⟩, _, lines, _, hstart, rfl,
    hdial, (hdials _ List.mem_cons_self es _ _ hdial).1⟩
  by_contra hunnamed
  exact absurd (hport₂.mpr ⟨rfl, hunnamed⟩) (by decide)

/-- It is not so that the check leaves only targets with a port that can be dialed. -/
theorem zero_port_passes_check :
    ¬ ∀ n : NodeSettings, n.check = .ok () → ∀ s ∈ n.links, ∀ target ∈ s.targets,
      ∃ e, Endpoint.ofTarget target n.port = .ok e ∧ e.host ≠ "" ∧ e.port ≠ 0 := by
  intro h
  obtain ⟨e, he, -, hport⟩ := h
    ⟨"node-a", 0, 100000, [⟨"tokyo", ⟨"tokyo", "pass"⟩, ["h1"], 10, 1000, .fixed⟩]⟩ (by decide)
    _ List.mem_cons_self "h1" List.mem_cons_self
  cases he
  exact hport rfl

end ClusterRelay
