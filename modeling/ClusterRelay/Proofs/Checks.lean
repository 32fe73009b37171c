import ClusterRelay.Settings.Basic

/-!
# What a passed check means

The check of settings stops at the first violation, so what it looks at depends on what it has
found so far, and the names it compares a link's name with are those of the links before. That
nothing was found is easier to say: it is a condition on the settings that knows no order. Each
function of the check is given such a condition here, and `check_eq_ok_iff` puts them together.
-/

namespace ClusterRelay

/-- Whatever these targets are used for, there is one, it is asked for at least once when its turn
comes, and each names an endpoint. -/
structure LinkSettings.Usable (l : LinkSettings) (port : UInt16) : Prop where
  targets : l.targets ≠ []
  attempts : l.attempts ≠ 0
  endpoints : ∀ target ∈ l.targets, ∃ endpoint, Endpoint.ofTarget target port = .ok endpoint

theorem firstBadTarget_eq_none_iff {port : UInt16} {targets : List String} :
    firstBadTarget port targets = none ↔
      ∀ target ∈ targets, ∃ endpoint, Endpoint.ofTarget target port = .ok endpoint := by
  induction targets with
  | nil => simp [firstBadTarget]
  | cons target targets ih =>
      rw [firstBadTarget, List.forall_mem_cons]
      split
      · next fault hparse => simp [hparse]
      · next endpoint hparse => simp [hparse, ih]

theorem LinkSettings.violation?_eq_none_iff {l : LinkSettings} {port : UInt16}
    {earlier : List String} : l.violation? port earlier = none ↔
      l.name ≠ "" ∧ l.name ∉ earlier ∧ l.Usable port := by
  have husable : l.Usable port ↔ l.targets ≠ [] ∧ l.attempts ≠ 0 ∧
      firstBadTarget port l.targets = none := by
    rw [firstBadTarget_eq_none_iff]
    exact ⟨fun ⟨h, h', h''⟩ => ⟨h, h', h''⟩, fun ⟨h, h', h''⟩ => ⟨h, h', h''⟩⟩
  rw [husable]
  unfold violation?
  split
  · next hname => simp [hname]
  · next hname =>
      split
      · next hrepeated => simp [hrepeated]
      · next hnew =>
          split
          · next hnone => simp [hnone]
          · next hsome =>
              split
              · next hzero => simp [hzero]
              · next hpositive => simp [hname, hnew, hsome, hpositive]

theorem linksViolation?_eq_none_iff {port : UInt16} {earlier : List String}
    {ls : List LinkSettings} : linksViolation? port earlier ls = none ↔
      (∀ l ∈ ls, l.name ≠ "" ∧ l.name ∉ earlier ∧ l.Usable port) ∧
        (ls.map LinkSettings.name).Nodup := by
  induction ls generalizing earlier with
  | nil => simp [linksViolation?]
  | cons l ls ih =>
      rw [linksViolation?, List.forall_mem_cons, List.map_cons, List.nodup_cons]
      split
      · next v hv =>
          have hviolated : ¬ (l.name ≠ "" ∧ l.name ∉ earlier ∧ l.Usable port) := by
            rw [← LinkSettings.violation?_eq_none_iff, hv]
            exact nofun
          simp [hviolated]
      · next hnone =>
          have hunviolated := LinkSettings.violation?_eq_none_iff.mp hnone
          rw [ih]
          constructor
          · rintro ⟨hrest, hnodup⟩
            refine ⟨⟨hunviolated, fun l' hl' => ?_⟩, fun hmem => ?_, hnodup⟩
            · obtain ⟨hname, hnew, husable⟩ := hrest l' hl'
              exact ⟨hname, fun hmem => hnew (List.mem_cons_of_mem _ hmem), husable⟩
            · obtain ⟨l', hl', hsame⟩ := List.mem_map.mp hmem
              exact (hrest l' hl').2.1 (hsame ▸ List.mem_cons_self)
          · rintro ⟨⟨-, hrest⟩, hnotin, hnodup⟩
            refine ⟨fun l' hl' => ?_, hnodup⟩
            obtain ⟨hname, hnew, husable⟩ := hrest l' hl'
            refine ⟨hname, fun hmem => ?_, husable⟩
            rcases List.mem_cons.mp hmem with hsame | hearlier
            · exact hnotin (List.mem_map.mpr ⟨l', hl', hsame⟩)
            · exact hnew hearlier

/-- Settings pass the check just if there is room to hold something back, all links have names of
their own, and all links are usable. -/
theorem NodeSettings.check_eq_ok_iff {n : NodeSettings} : n.check = .ok () ↔
    n.capacity ≠ 0 ∧ (∀ l ∈ n.links, l.name ≠ "" ∧ l.Usable n.port) ∧
      (n.links.map LinkSettings.name).Nodup := by
  have hcheck : n.check = .ok () ↔ n.violation? = none := by
    unfold check
    split
    · next v hv => simp [hv]
    · next hnone => simp [hnone]
  have hlinks : (∀ l ∈ n.links, l.name ≠ "" ∧ l.Usable n.port) ↔
      ∀ l ∈ n.links, l.name ≠ "" ∧ l.name ∉ [] ∧ l.Usable n.port := by simp
  rw [hcheck, violation?, hlinks, ← linksViolation?_eq_none_iff]
  split
  · next hzero => simp [hzero]
  · next hpositive => simp [hpositive]

end ClusterRelay
