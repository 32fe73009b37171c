import ClusterRelay.Proofs.Checks
import Mathlib.Data.List.Forall2

/-!
# The verdict of a check

The check of settings looks at one thing after another and stops at the first that is amiss. What it
says can be told without following it. List everything that is amiss, in the order in which it
counts and without stopping anywhere: the capacity, then the links in their order, of each link its
name, whether an earlier link has that name, whether there are targets, the attempts, and then every
target that names no endpoint. The check reports the head of that list, and passes settings whose
list is empty.

Whether the list is empty does not depend on the order. A name that occurs twice is repeated
wherever the two links stand, though it is another link that is reported; and every other condition
is about one link, or about one target. So settings pass or fail together with all their reorderings.
-/

namespace ClusterRelay

open scoped List

/-! ## All that is amiss -/

namespace Violation

/-- The violation, if there is one. -/
def onlyIf (v : Violation) (c : Prop) [Decidable c] : List Violation := if c then [v] else []

theorem head?_onlyIf (v : Violation) (c : Prop) [Decidable c] (vs : List Violation) :
    (v.onlyIf c ++ vs).head? = if c then some v else vs.head? := by
  unfold onlyIf
  split
  · rfl
  · rw [List.nil_append]

/-- The violation of a target that names no endpoint. -/
def ofTarget? (port : UInt16) (target : String) : Option Violation :=
  match Endpoint.ofTarget target port with
  | .error fault => some (.badTarget fault)
  | .ok _ => none

end Violation

/-- All that is amiss with a link that comes after other links. -/
def LinkSettings.violations (l : LinkSettings) (port : UInt16) (before : List LinkSettings) :
    List Violation :=
  Violation.emptyName.onlyIf (l.name = "") ++
    ((Violation.repeatedName l.name).onlyIf (∃ l' ∈ before, l'.name = l.name) ++
      ((Violation.noTargets l.name).onlyIf (l.targets = []) ++
        ((Violation.zeroAttempts l.name).onlyIf (l.attempts = 0) ++
          l.targets.filterMap (Violation.ofTarget? port))))

/-- All that is amiss with the settings of a node. -/
def NodeSettings.violations (n : NodeSettings) : List Violation :=
  Violation.zeroCapacity.onlyIf (n.capacity = 0) ++
    n.links.zipIdx.flatMap fun (l, i) => l.violations n.port (n.links.take i)

theorem firstBadTarget_eq_head? (port : UInt16) (targets : List String) :
    (firstBadTarget port targets).map .badTarget =
      (targets.filterMap (Violation.ofTarget? port)).head? := by
  induction targets with
  | nil => rfl
  | cons target targets ih =>
      rw [firstBadTarget, List.filterMap_cons, Violation.ofTarget?]
      cases Endpoint.ofTarget target port with
      | error fault => rfl
      | ok endpoint => exact ih

theorem LinkSettings.violation?_eq_head? {l : LinkSettings} {port : UInt16} {earlier : List String}
    {before : List LinkSettings} (hnames : earlier ~ before.map LinkSettings.name) :
    l.violation? port earlier = (l.violations port before).head? := by
  have hrepeated : l.name ∈ earlier ↔ ∃ l' ∈ before, l'.name = l.name := by
    rw [hnames.mem_iff, List.mem_map]
  unfold violations
  rw [Violation.head?_onlyIf, Violation.head?_onlyIf, Violation.head?_onlyIf,
    Violation.head?_onlyIf, ← firstBadTarget_eq_head?]
  simp only [← hrepeated]
  rfl

/-- The check of the links after other links. -/
theorem linksViolation?_eq_head? {port : UInt16} {earlier : List String}
    {before ls : List LinkSettings} (hnames : earlier ~ before.map LinkSettings.name) :
    linksViolation? port earlier ls =
      ((ls.zipIdx before.length).flatMap fun (l, i) =>
        l.violations port ((before ++ ls).take i)).head? := by
  induction ls generalizing before earlier with
  | nil => rfl
  | cons l ls ih =>
      have hnext : l.name :: earlier ~ (before ++ [l]).map LinkSettings.name := by
        rw [List.map_append]
        exact (hnames.cons l.name).trans (List.perm_append_singleton _ _).symm
      have hrest := ih hnext
      rw [List.length_append, List.append_assoc] at hrest
      rw [linksViolation?, List.zipIdx_cons, List.flatMap_cons, List.head?_append,
        LinkSettings.violation?_eq_head? hnames]
      simp only [List.take_left]
      cases (l.violations port before).head? with
      | some v => rfl
      | none => exact hrest

theorem NodeSettings.violation?_eq_head? (n : NodeSettings) :
    n.violation? = n.violations.head? := by
  have hnone : [] ~ ([] : List LinkSettings).map LinkSettings.name := .refl []
  have hlinks : linksViolation? n.port [] n.links =
      (n.links.zipIdx.flatMap fun (l, i) => l.violations n.port (n.links.take i)).head? :=
    linksViolation?_eq_head? hnone
  rw [violation?, violations, Violation.head?_onlyIf, hlinks]

theorem NodeSettings.check_eq_error_iff {n : NodeSettings} {fault : Fault} :
    n.check = .error fault ↔ ∃ v, n.violations.head? = some v ∧ v.fault = fault := by
  rw [check, n.violation?_eq_head?]
  cases n.violations.head? with
  | some v => simp
  | none => simp

/-! ## Other orders -/

/-- The settings of the same link, with its targets in some order. -/
def LinkSettings.Reordered (l l' : LinkSettings) : Prop :=
  ∃ targets, l.targets ~ targets ∧ l' = { l with targets }

/-- The same settings, with the links in some order and each of them with its targets in some
order. -/
def NodeSettings.Reordered (n n' : NodeSettings) : Prop :=
  ∃ ls links, n.links ~ ls ∧ List.Forall₂ LinkSettings.Reordered ls links ∧
    n' = { n with links }

/-- Settings that can be put to use: there is room to hold something back, the names of the links
tell them apart, and each link has what it takes. -/
structure NodeSettings.WellFormed (n : NodeSettings) : Prop where
  capacity : 1 ≤ n.capacity
  named : ∀ l ∈ n.links, l.name ≠ ""
  distinct : n.links.Pairwise fun l l' => l.name ≠ l'.name
  targets : ∀ l ∈ n.links, l.targets ≠ []
  attempts : ∀ l ∈ n.links, 1 ≤ l.attempts
  endpoints : ∀ l ∈ n.links, ∀ target ∈ l.targets,
    ∃ endpoint, Endpoint.ofTarget target n.port = .ok endpoint

theorem NodeSettings.wellFormed_iff {n : NodeSettings} :
    n.WellFormed ↔ n.capacity ≠ 0 ∧ (∀ l ∈ n.links, l.name ≠ "" ∧ l.Usable n.port) ∧
      (n.links.map LinkSettings.name).Nodup := by
  have hcapacity : 1 ≤ n.capacity ↔ n.capacity ≠ 0 := by
    rw [UInt64.le_iff_toNat_le, Ne, ← UInt64.toNat_inj]
    exact Nat.one_le_iff_ne_zero
  have hattempts (l : LinkSettings) : 1 ≤ l.attempts ↔ l.attempts ≠ 0 := by
    rw [UInt32.le_iff_toNat_le, Ne, ← UInt32.toNat_inj]
    exact Nat.one_le_iff_ne_zero
  rw [List.Nodup, List.pairwise_map]
  constructor
  · intro h
    refine ⟨hcapacity.mp h.capacity, fun l hl => ?_, h.distinct⟩
    exact ⟨h.named l hl, h.targets l hl, (hattempts l).mp (h.attempts l hl), h.endpoints l hl⟩
  · intro ⟨hroom, hlinks, hdistinct⟩
    refine ⟨hcapacity.mpr hroom, ?_, hdistinct, ?_, ?_, ?_⟩
    · exact fun l hl => (hlinks l hl).1
    · exact fun l hl => (hlinks l hl).2.targets
    · exact fun l hl => (hattempts l).mpr (hlinks l hl).2.attempts
    · exact fun l hl => (hlinks l hl).2.endpoints

section

variable {l l' : LinkSettings}

theorem LinkSettings.Reordered.name_eq (h : l.Reordered l') : l'.name = l.name := by
  obtain ⟨targets, -, rfl⟩ := h
  rfl

theorem LinkSettings.Reordered.usable_iff (h : l.Reordered l') (port : UInt16) :
    l'.Usable port ↔ l.Usable port := by
  obtain ⟨targets, hperm, rfl⟩ := h
  have hnone : targets = [] ↔ l.targets = [] := by
    rw [← List.length_eq_zero_iff, ← hperm.length_eq, List.length_eq_zero_iff]
  constructor
  · intro husable
    refine ⟨fun h => husable.targets (hnone.mpr h), husable.attempts, fun target htarget => ?_⟩
    exact husable.endpoints target (hperm.mem_iff.mp htarget)
  · intro husable
    refine ⟨fun h => husable.targets (hnone.mp h), husable.attempts, fun target htarget => ?_⟩
    exact husable.endpoints target (hperm.mem_iff.mpr htarget)

end

/-- Neither the names of links nor whether they are usable depend on the order of targets. -/
theorem reordered_links {ls links : List LinkSettings}
    (h : List.Forall₂ LinkSettings.Reordered ls links) (port : UInt16) :
    links.map LinkSettings.name = ls.map LinkSettings.name ∧
      ((∀ l ∈ links, l.name ≠ "" ∧ l.Usable port) ↔
        ∀ l ∈ ls, l.name ≠ "" ∧ l.Usable port) := by
  induction h with
  | nil => exact ⟨rfl, by simp⟩
  | cons hfirst _ ih =>
      obtain ⟨hnames, husable⟩ := ih
      constructor
      · rw [List.map_cons, List.map_cons, hnames, hfirst.name_eq]
      · rw [List.forall_mem_cons, List.forall_mem_cons, husable, hfirst.name_eq,
          hfirst.usable_iff port]

theorem NodeSettings.Reordered.wellFormed_iff {n n' : NodeSettings} (h : n.Reordered n') :
    n'.WellFormed ↔ n.WellFormed := by
  obtain ⟨ls, links, hperm, htargets, rfl⟩ := h
  obtain ⟨hnames, husable⟩ := reordered_links htargets n.port
  have hlinks : (∀ l ∈ ls, l.name ≠ "" ∧ l.Usable n.port) ↔
      ∀ l ∈ n.links, l.name ≠ "" ∧ l.Usable n.port :=
    ⟨fun h l hl => h l (hperm.mem_iff.mp hl), fun h l hl => h l (hperm.mem_iff.mpr hl)⟩
  have hdistinct : (ls.map LinkSettings.name).Nodup ↔ (n.links.map LinkSettings.name).Nodup :=
    (hperm.map LinkSettings.name).nodup_iff.symm
  rw [NodeSettings.wellFormed_iff, NodeSettings.wellFormed_iff]
  show n.capacity ≠ 0 ∧ (∀ l ∈ links, l.name ≠ "" ∧ l.Usable n.port) ∧
    (links.map LinkSettings.name).Nodup ↔ _
  rw [hnames, husable, hlinks, hdistinct]

/-- The check passes just the settings that are well-formed, so it passes or refuses them together
with all their reorderings. Where it refuses settings, the fault is that of the first thing that is
amiss: the capacity comes before the links, the links come in their order, and of a link the name
comes first, then its repetition, the lack of targets, the lack of attempts, and the targets in
their order. -/
theorem check_exact (n : NodeSettings) :
    (n.check = .ok () ↔ n.WellFormed) ∧
    (∀ n', n.Reordered n' → (n'.check = .ok () ↔ n.check = .ok ())) ∧
    ∀ fault, n.check = .error fault ↔ ∃ v, n.violations.head? = some v ∧ v.fault = fault := by
  have hpasses (m : NodeSettings) : m.check = .ok () ↔ m.WellFormed := by
    rw [NodeSettings.check_eq_ok_iff, NodeSettings.wellFormed_iff]
  refine ⟨hpasses n, ?_, ?_⟩
  · intro n' hreordered
    rw [hpasses n', hpasses n]
    exact hreordered.wellFormed_iff
  · intro fault
    exact NodeSettings.check_eq_error_iff

/-- Two links with something amiss in each. They are refused in either order, and each time the fault
is that of the link which comes first. -/
theorem check_exact_either_order :
    let tokyo : LinkSettings := ⟨"tokyo", ⟨"tokyo", "pass"⟩, ["t1", "[::1"], 10, 1000, .fixed⟩
    let london : LinkSettings := ⟨"london", ⟨"london", "pass"⟩, ["l1"], 0, 1000, .fixed⟩
    let n : NodeSettings := ⟨"node-a", 5701, 100, [tokyo, london]⟩
    let n' : NodeSettings :=
      { n with links := [london, { tokyo with targets := ["[::1", "t1"] }] }
    n.Reordered n' ∧ ¬ n.WellFormed ∧ n'.check ≠ .ok () ∧
      n.check = .error (.target "[::1" "missing closing bracket") ∧
      n'.check = .error (.settings "link london connect_attempts must be at least 1") := by
  intro tokyo london n n'
  have hreordered : n.Reordered n' := by
    refine ⟨[london, tokyo], _, .swap _ _ _, ?_, rfl⟩
    exact .cons ⟨_, .refl _, rfl⟩ (.cons ⟨_, .swap _ _ _, rfl⟩ .nil)
  obtain ⟨hpasses, horder, hfault⟩ := check_exact n
  have hrefused : n.check = .error (.target "[::1" "missing closing bracket") :=
    (hfault _).mpr ⟨.badTarget (.target "[::1" "missing closing bracket"), by decide, rfl⟩
  have hfails : n.check ≠ .ok () := by
    rw [hrefused]
    exact nofun
  refine ⟨hreordered, fun h => hfails (hpasses.mpr h), ?_, hrefused, ?_⟩
  · exact fun h => hfails ((horder n' hreordered).mp h)
  · exact ((check_exact n').2.2 _).mpr ⟨.zeroAttempts "london", by decide, by decide⟩

end ClusterRelay
