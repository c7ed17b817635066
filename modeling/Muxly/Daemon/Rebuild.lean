/-
# Muxly.Daemon.Rebuild -- when reconciliation reaches the snapshot

A pass of `reconcileSessionSnapshots` looks for a pane only below the window it now belongs to, and
prunes a pane only when no snapshot has its id. So a pane that moved to another kept window is added
there and stays where it was. `InPlace` is the condition on the earlier projection under which the
pass does reach the snapshot.
-/
import Mathlib.Data.List.Nodup
import Muxly.Daemon.Passes

namespace Muxly.Daemon

open Muxly.Control Muxly.Core Muxly.Tree Document

variable {O : Outline Projects} {s : Nat} {snapshots : List PaneSnapshot}

/-! ## The pass -/

variable (O s snapshots) in
/-- The outline without what is stale and what lies below it. -/
noncomputable def kept : Outline Projects :=
  O.drop {y | ∃ c, Stale O s snapshots c ∧ O.Under c y}

theorem kept_iff {hit : Projects → Prop} {x : Nat} :
    (kept O s snapshots).Under s x ∧ (kept O s snapshots).Has hit x ↔
      Stays O s snapshots x ∧ O.Has hit x := by
  have hclosed : O.Closed {y | ∃ c, Stale O s snapshots c ∧ O.Under c y} := by
    rintro p y hy ⟨c, hc, hcp⟩
    exact ⟨c, hc, hcp.child hy⟩
  constructor
  · rintro ⟨hunder, hhas⟩
    obtain ⟨hx, hhas⟩ := Outline.has_drop.mp hhas
    exact ⟨⟨(hclosed.under_drop hx).mp hunder, fun c hc hcx => hx ⟨c, hc, hcx⟩⟩, hhas⟩
  · rintro ⟨hstays, hhas⟩
    have hx : x ∉ {y | ∃ c, Stale O s snapshots c ∧ O.Under c y} := by
      rintro ⟨c, hc, hcx⟩
      exact hstays.fresh c hc hcx
    exact ⟨(hclosed.under_drop hx).mpr hstays.under, Outline.has_drop.mpr ⟨hx, hhas⟩⟩

theorem child_kept {q x : Nat} (hx : Stays O s snapshots x) (hq : O.Child q x) :
    (kept O s snapshots).Child q x :=
  Outline.child_drop.mpr ⟨fun ⟨c, hc, hcx⟩ => hx.fresh c hc hcx, hq⟩

section Comparing

variable {O₁ : Outline Projects} (hg : Widened O₁ O s snapshots snapshots) (hO : O₁.WellFormed)
include hg hO

omit hO in
/-- Something new is no stale root. -/
theorem Widened.stale_old {c : Nat} (hc : Stale O s snapshots c) : ∃ e, O₁ c = some e := by
  cases h : O₁ c with
  | some e => exact ⟨e, rfl⟩
  | none =>
      exfalso
      rcases hc with ⟨w, ⟨e, he, -⟩, hw, hnot⟩ | ⟨q, w, p, -, -, -, ⟨e, he, -⟩, hp, hnot⟩
      · obtain ⟨f, hf, hfw⟩ := hw
        rw [he] at hf
        cases hf
        rcases hg.new he h with hnew | hnew
        · obtain ⟨snapshot, hmem, hwin, -⟩ := hnew.window
          rw [hfw] at hwin
          exact hnot (Option.some.inj hwin ▸ List.mem_map_of_mem hmem)
        · have hnone := hnew.window
          rw [hfw] at hnone
          cases hnone
      · obtain ⟨f, hf, hfp⟩ := hp
        rw [he] at hf
        cases hf
        rcases hg.new he h with hnew | hnew
        · have hnone := hnew.pane
          rw [hfp] at hnone
          cases hnone
        · obtain ⟨snapshot, hmem, hpane, -⟩ := hnew.pane
          rw [hfp] at hpane
          exact hnot (Option.some.inj hpane ▸ List.mem_map_of_mem hmem)

omit hO in
theorem Widened.child_old {p c : Nat} {e : Entry Projects} (hc : O₁ c = some e)
    (h : O.Child p c) : O₁.Child p c := by
  obtain ⟨f, hf, hp⟩ := h
  rw [hg.extend.entry hc hf] at hp
  exact ⟨e, hc, hp⟩

omit hO in
theorem Widened.has_old {hit : Projects → Prop} {c : Nat} {e : Entry Projects}
    (hc : O₁ c = some e) (h : O.Has hit c) : O₁.Has hit c := by
  obtain ⟨f, hf, hhit⟩ := h
  rw [hg.extend.entry hc hf] at hhit
  exact ⟨e, hc, hhit⟩

/-- The loop makes nothing stale and keeps what is. -/
theorem Widened.stale_iff {c : Nat} : Stale O s snapshots c ↔ Stale O₁ s snapshots c := by
  constructor
  · intro hc
    obtain ⟨e, he⟩ := hg.stale_old hc
    rcases hc with ⟨w, hchild, hw, hnot⟩ | ⟨q, w, p, hq, hw, hmem, hchild, hp, hnot⟩
    · exact .inl ⟨w, hg.child_old he hchild, hg.has_old he hw, hnot⟩
    · have hchild₁ := hg.child_old he hchild
      obtain ⟨f, hf⟩ := hO.parent hchild₁
      exact .inr ⟨q, w, p, hg.child_old hf hq, hg.has_old hf hw, hmem, hchild₁,
        hg.has_old he hp, hnot⟩
  · rintro (⟨w, hchild, hw, hnot⟩ | ⟨q, w, p, hq, hw, hmem, hchild, hp, hnot⟩)
    · exact .inl ⟨w, hg.extend.child hchild, hg.extend.has hw, hnot⟩
    · exact .inr ⟨q, w, p, hg.extend.child hq, hg.extend.has hw, hmem, hg.extend.child hchild,
        hg.extend.has hp, hnot⟩

/-- A node that was there stays after the loop when it stayed before it. -/
theorem Widened.stays_iff {x : Nat} {e : Entry Projects} (hx : O₁ x = some e) :
    Stays O s snapshots x ↔ Stays O₁ s snapshots x := by
  constructor
  · intro h
    refine ⟨(hg.extend.under hO hx).mp h.under, fun c hc hcx => ?_⟩
    exact h.fresh c ((hg.stale_iff hO).mpr hc) ((hg.extend.under hO hx).mpr hcx)
  · intro h
    refine ⟨(hg.extend.under hO hx).mpr h.under, fun c hc hcx => ?_⟩
    exact h.fresh c ((hg.stale_iff hO).mp hc) ((hg.extend.under hO hx).mp hcx)

omit hO in
/-- Every snapshot's window is there after the loop, and stays. -/
theorem Widened.window_stays {snapshot : PaneSnapshot} (hmem : snapshot ∈ snapshots) :
    ∃ q x, Stays O s snapshots q ∧ O.Child s q ∧ HasWindow O snapshot.windowId q ∧
      Stays O s snapshots x ∧ O.Child q x ∧ HasPane O snapshot.paneId x := by
  obtain ⟨q, x, hq, hw, hx, hp⟩ := hg.served snapshot hmem
  have hwmem : snapshot.windowId ∈ snapshots.map (·.windowId) := List.mem_map_of_mem hmem
  have hpmem : snapshot.paneId ∈ snapshots.map (·.paneId) := List.mem_map_of_mem hmem
  exact ⟨q, x, stays_window hg.wellFormed hq hw hwmem, hq, hw,
    stays_pane hg.wellFormed hq hw hwmem hx hp hpmem, hx, hp⟩

/-- The earlier projection is in place when the pass reaches the snapshot. -/
theorem Widened.inPlace_of_projected
    (hP : Projected (kept O s snapshots) s snapshots) : InPlace O₁ s snapshots where
  window := by
    intro w x hstays hw
    obtain ⟨e, he, -⟩ := id hw
    have hx := kept_iff.mpr ⟨(hg.stays_iff hO he).mpr hstays, hg.extend.has hw⟩
    have hwmem := hP.onlyWindows hx.1 hx.2
    obtain ⟨snapshot, hmem, rfl⟩ := List.mem_map.mp hwmem
    obtain ⟨q, -, hq, hqs, hqw, -⟩ := hg.window_stays hmem
    have hxq : x = q := (hP.window snapshot hmem).unique hx (kept_iff.mpr ⟨hq, hqw⟩)
    refine ⟨hg.child_old he (hxq ▸ hqs), hwmem, fun y hy hyw => ?_⟩
    obtain ⟨f, hf, -⟩ := id hyw
    exact (hP.window snapshot hmem).unique
      (kept_iff.mpr ⟨(hg.stays_iff hO hf).mpr hy, hg.extend.has hyw⟩) hx
  pane := by
    intro p x hstays hp
    obtain ⟨e, he, -⟩ := id hp
    have hx := kept_iff.mpr ⟨(hg.stays_iff hO he).mpr hstays, hg.extend.has hp⟩
    obtain ⟨snapshot, hmem, rfl⟩ := List.mem_map.mp (hP.onlyPanes hx.1 hx.2)
    obtain ⟨q, hq, hqw⟩ := hP.placed snapshot hmem hx.1 hx.2
    have hq₁ := hg.child_old he (Outline.child_drop.mp hq).2
    obtain ⟨f, hf⟩ := hO.parent hq₁
    refine ⟨⟨snapshot, hmem, rfl, q, hq₁, hg.has_old hf (Outline.has_drop.mp hqw).2⟩, ?_⟩
    intro y hy hyp
    obtain ⟨g, hgy, -⟩ := id hyp
    exact (hP.pane snapshot hmem).unique
      (kept_iff.mpr ⟨(hg.stays_iff hO hgy).mpr hy, hg.extend.has hyp⟩) hx

/-- After the loop every window node that stays is in place, and the only one of its window. -/
theorem Widened.window_inPlace (hI : InPlace O₁ s snapshots) {w : Bytes} {x : Nat}
    (hx : Stays O s snapshots x) (hw : HasWindow O w x) :
    O.Child s x ∧ w ∈ snapshots.map (·.windowId) ∧
      ∀ y, Stays O s snapshots y → HasWindow O w y → y = x := by
  -- A window node is an old one, in place by assumption, or a new one, added where it belongs.
  have hcases : ∀ {z}, Stays O s snapshots z → HasWindow O w z →
      O.Child s z ∧ w ∈ snapshots.map (·.windowId) ∧
      ((∃ e, O₁ z = some e) ∨ ∀ y, O.Child s y → HasWindow O w y → y = z) := by
    intro z hz hzw
    obtain ⟨e, he, hew⟩ := id hzw
    cases h : O₁ z with
    | some f =>
        obtain ⟨hchild, hmem, -⟩ := hI.window ((hg.stays_iff hO h).mp hz) (hg.has_old h hzw)
        exact ⟨hg.extend.child hchild, hmem, .inl ⟨f, rfl⟩⟩
    | none =>
        rcases hg.new he h with hnew | hnew
        · obtain ⟨snapshot, hmem, hwin, honly⟩ := hnew.window
          rw [hew] at hwin
          cases hwin
          exact ⟨⟨e, he, hnew.parent⟩, List.mem_map_of_mem hmem, .inr honly⟩
        · have hnone := hnew.window
          rw [hew] at hnone
          cases hnone
  obtain ⟨hchild, hmem, hkind⟩ := hcases hx hw
  refine ⟨hchild, hmem, fun y hy hyw => ?_⟩
  obtain ⟨hychild, -, hykind⟩ := hcases hy hyw
  rcases hkind with ⟨e, he⟩ | honly
  · rcases hykind with ⟨f, hf⟩ | honly
    · exact (hI.window ((hg.stays_iff hO he).mp hx) (hg.has_old he hw)).2.2 y
        ((hg.stays_iff hO hf).mp hy) (hg.has_old hf hyw)
    · exact (honly x hchild hw).symm
  · exact honly y hychild hyw

/-- After the loop every pane that stays is below its window, and the only one with its id. -/
theorem Widened.pane_inPlace (hI : InPlace O₁ s snapshots)
    (hpanes : (snapshots.map (·.paneId)).Nodup) (hs : ∀ p, ¬ HasPane O p s) {p : Bytes} {x : Nat}
    (hx : Stays O s snapshots x) (hp : HasPane O p x) :
    (∃ snapshot ∈ snapshots, snapshot.paneId = p ∧
      ∃ q, Stays O s snapshots q ∧ O.Child q x ∧ HasWindow O snapshot.windowId q) ∧
      ∀ y, Stays O s snapshots y → HasPane O p y → y = x := by
  have hcases : ∀ {z}, Stays O s snapshots z → HasPane O p z →
      ∃ snapshot ∈ snapshots, snapshot.paneId = p ∧
      ∃ q, Stays O s snapshots q ∧ O.Child q z ∧ HasWindow O snapshot.windowId q ∧
      ((∃ e, O₁ z = some e) ∨ ∀ y, O.Child q y → HasPane O p y → y = z) := by
    intro z hz hzp
    obtain ⟨e, he, hep⟩ := id hzp
    have hparent : ∀ {q}, O.Child q z → Stays O s snapshots q := fun {q} hq =>
      ⟨hz.under.parent (fun h => hs p (h ▸ hzp)) hq,
        fun c hc hcq => hz.fresh c hc (hcq.child hq)⟩
    cases h : O₁ z with
    | some f =>
        obtain ⟨⟨snapshot, hmem, hid, q, hq, hw⟩, -⟩ :=
          hI.pane ((hg.stays_iff hO h).mp hz) (hg.has_old h hzp)
        have hq' := hg.extend.child hq
        exact ⟨snapshot, hmem, hid, q, hparent hq', hq', hg.extend.has hw, .inl ⟨f, rfl⟩⟩
    | none =>
        rcases hg.new he h with hnew | hnew
        · have hnone := hnew.pane
          rw [hep] at hnone
          cases hnone
        · obtain ⟨snapshot, hmem, hpane, q, hqp, -, hqw, honly⟩ := hnew.pane
          rw [hep] at hpane
          cases hpane
          have hq : O.Child q z := ⟨e, he, hqp⟩
          exact ⟨snapshot, hmem, rfl, q, hparent hq, hq, hqw, .inr honly⟩
  obtain ⟨snapshot, hmem, hid, q, hq, hqx, hqw, hkind⟩ := hcases hx hp
  refine ⟨⟨snapshot, hmem, hid, q, hq, hqx, hqw⟩, fun y hy hyp => ?_⟩
  obtain ⟨snapshot', hmem', hid', r, hr, hry, hrw, hykind⟩ := hcases hy hyp
  -- One snapshot has the pane id, so both panes lie below the one node of its window.
  have hsame : snapshot' = snapshot :=
    List.inj_on_of_nodup_map hpanes hmem' hmem (hid'.trans hid.symm)
  subst hsame
  have hrq : r = q := (hg.window_inPlace hO hI hq hqw).2.2 r hr hrw
  subst hrq
  rcases hkind with ⟨e, he⟩ | honly
  · rcases hykind with ⟨f, hf⟩ | honly
    · exact (hI.pane ((hg.stays_iff hO he).mp hx) (hg.has_old he hp)).2 y
        ((hg.stays_iff hO hf).mp hy) (hg.has_old hf hyp)
    · exact (honly x hqx hp).symm
  · exact honly y hry hyp

/-- The pass reaches the snapshot exactly when the earlier projection was in place. -/
theorem Widened.projected_iff (hpanes : (snapshots.map (·.paneId)).Nodup)
    (hs : ∀ p, ¬ HasPane O p s) :
    Projected (kept O s snapshots) s snapshots ↔ InPlace O₁ s snapshots := by
  refine ⟨hg.inPlace_of_projected hO, fun hI => ⟨?_, ?_, ?_, ?_, ?_⟩⟩
  · intro snapshot hmem
    obtain ⟨q, -, hq, -, hw, -⟩ := hg.window_stays hmem
    refine ⟨q, kept_iff.mpr ⟨hq, hw⟩, fun y hy => ?_⟩
    obtain ⟨hy, hyw⟩ := kept_iff.mp hy
    exact (hg.window_inPlace hO hI hq hw).2.2 y hy hyw
  · intro w x hunder hw
    obtain ⟨hx, hw⟩ := kept_iff.mp ⟨hunder, hw⟩
    exact (hg.window_inPlace hO hI hx hw).2.1
  · intro snapshot hmem
    obtain ⟨-, x, -, -, -, hx, -, hp⟩ := hg.window_stays hmem
    refine ⟨x, kept_iff.mpr ⟨hx, hp⟩, fun y hy => ?_⟩
    obtain ⟨hy, hyp⟩ := kept_iff.mp hy
    exact (hg.pane_inPlace hO hI hpanes hs hx hp).2 y hy hyp
  · intro snapshot hmem x hunder hp
    obtain ⟨hx, hp⟩ := kept_iff.mp ⟨hunder, hp⟩
    obtain ⟨⟨snapshot', hmem', hid, q, hq, hqx, hqw⟩, -⟩ :=
      hg.pane_inPlace hO hI hpanes hs hx hp
    have hsame : snapshot' = snapshot := List.inj_on_of_nodup_map hpanes hmem' hmem hid
    subst hsame
    exact ⟨q, child_kept hx hqx, (kept_iff.mpr ⟨hq, hqw⟩).2⟩
  · intro p x hunder hp
    obtain ⟨hx, hp⟩ := kept_iff.mp ⟨hunder, hp⟩
    obtain ⟨⟨snapshot, hmem, hid, -⟩, -⟩ := hg.pane_inPlace hO hI hpanes hs hx hp
    exact hid ▸ List.mem_map_of_mem hmem

end Comparing

/-- The pass over the snapshots of one session, turn by turn. -/
theorem reconcileSessionSnapshots_eq {parentId : Nat} {first : PaneSnapshot}
    {rest : List PaneSnapshot}
    (hsame : ¬ (rest.any fun snapshot => snapshot.sessionId ≠ first.sessionId) = true) :
    reconcileSessionSnapshots parentId (first :: rest) = (do
      let sessionNodeId ← ensureSessionNode parentId first
      let ids ← (first :: rest).foldlM (ensureTurn sessionNodeId) []
      let sessionNode ← Action.view fun d => d.nodeOr sessionNodeId .unknownNode
      sessionNode.children.forM (pruneTurn ids (first :: rest))
      return sessionNodeId : DocM Nat) := by
  simp only [reconcileSessionSnapshots]
  rw [if_neg hsame]
  rfl

/-- What a pass that succeeds did: it has a session node, and from the outline with that node it ran
the two loops. -/
theorem reconcile_loops {d d' : Document} (hv : Valid d) {parentId : Nat} {first : PaneSnapshot}
    {rest : List PaneSnapshot}
    (h : reconcileSessionSnapshots parentId (first :: rest) d = (.ok s, d')) :
    (∀ snapshot ∈ first :: rest, snapshot.sessionId = first.sessionId) ∧
    ∃ d₁, ensureSessionNode parentId first d = (.ok s, d₁) ∧ Valid d₁ ∧
      ∃ O, Widened (outline d₁) O s (first :: rest) (first :: rest) ∧
        outline d' = kept O s (first :: rest) := by
  by_cases hmixed : (rest.any fun snapshot => snapshot.sessionId ≠ first.sessionId) = true
  · simp only [reconcileSessionSnapshots, if_pos hmixed] at h
    cases h
  have hsame : ∀ snapshot ∈ first :: rest, snapshot.sessionId = first.sessionId := by
    intro snapshot hmem
    rcases List.mem_cons.mp hmem with rfl | hmem
    · rfl
    · by_contra hne
      exact hmixed (List.any_eq_true.mpr ⟨snapshot, hmem, decide_eq_true hne⟩)
  refine ⟨hsame, ?_⟩
  rw [reconcileSessionSnapshots_eq hmixed, Action.bind_apply] at h
  rcases hs : ensureSessionNode parentId first d with ⟨_ | t, d₁⟩
  · rw [hs] at h
    cases h
  rw [hs, Action.next_ok, Action.bind_apply] at h
  have hv₁ : Valid d₁ := by
    have hsound := (ensureSubdocument_settled parentId (sessionBackendPrefix ++ first.sessionId)
      first.sessionName d hv).1
    rw [ensureSessionNode] at hs
    rwa [hs] at hsound
  rcases hloop : (first :: rest).foldlM (ensureTurn t) [] d₁ with ⟨_ | ids, d₂⟩
  · rw [hloop] at h
    cases h
  rw [hloop, Action.next_ok, Action.bind_apply, Action.view_apply] at h
  obtain ⟨hv₂, hwide, hids⟩ := ensure_loop (first :: rest) (fun _ hmem => hmem) hv₁
    (.start (wellFormed_outline hv₁) t (first :: rest)) hloop
  cases hn : d₂.lookup t with
  | none =>
      rw [nodeOr_of_missing hn] at h
      cases h
  | some n =>
      rw [nodeOr_of_lookup hn, Action.next_ok, Action.bind_apply] at h
      rcases hprune : n.children.forM (pruneTurn ids (first :: rest)) d₂ with ⟨_ | _, d₃⟩
      · rw [hprune] at h
        cases h
      · rw [hprune] at h
        cases h
        refine ⟨d₁, rfl, hv₁, outline d₂, hwide, ?_⟩
        exact prune_loop (fun w => by rw [hids w]; simp) hv₂ hn hprune

/-- A session node projects no pane. -/
theorem session_no_pane {d : Document} {sessionId : Bytes}
    (h : (outline d).Has (·.session = some sessionId) s) (p : Bytes) :
    ¬ HasPane (outline d) p s := by
  intro hp
  obtain ⟨n, hn, hsession⟩ := has_outline.mp h
  obtain ⟨m, hm, hpane⟩ := has_outline.mp hp
  rw [hn] at hm
  cases hm
  have hkind := (projectedSession_eq_some.mp hsession).1
  rw [(projectedPane_eq_some.mp hpane).1] at hkind
  cases hkind

/-- A session node that was just added has nothing below it. -/
theorem inPlace_added {O : Outline Projects} (hO : O.WellFormed) {p : Nat} {label : Projects}
    (hfresh : O s = none) (hlt : p < s) (hwindow : label.window = none)
    (hpane : label.pane = none) : InPlace (O.add s ⟨some p, label⟩) s snapshots := by
  have hnone : ∀ c, ¬ (O.add s ⟨some p, label⟩).Child s c := by
    rintro c ⟨e, he, hparent⟩
    rcases (Outline.add_eq_some hfresh).mp he with he | ⟨rfl, rfl⟩
    · obtain ⟨f, hf⟩ := hO.parent ⟨e, he, hparent⟩
      rw [hfresh] at hf
      cases hf
    · exact absurd (Option.some.inj hparent) hlt.ne
  have hself : ∀ {x}, Stays (O.add s ⟨some p, label⟩) s snapshots x → x = s := by
    intro x hx
    rcases Outline.under_iff.mp hx.under with rfl | ⟨c, hc, -⟩
    · rfl
    · exact absurd hc (hnone c)
  have hlabel : ∀ {hit : Projects → Prop},
      (O.add s ⟨some p, label⟩).Has hit s → hit label := by
    rintro hit ⟨e, he, hhit⟩
    rcases (Outline.add_eq_some hfresh).mp he with he | ⟨-, rfl⟩
    · rw [hfresh] at he
      cases he
    · exact hhit
  constructor
  · intro w x hx hw
    rw [hself hx] at hw
    have hwin := hlabel hw
    rw [hwindow] at hwin
    cases hwin
  · intro i x hx hp
    rw [hself hx] at hp
    have hpan := hlabel hp
    rw [hpane] at hpan
    cases hpan

/-- Reconciliation reaches the snapshot exactly when the earlier projection of the session, if there
is one, was in place. -/
theorem reconcile_reaches_iff {d d' : Document} (hv : Valid d) {parentId : Nat}
    (hpanes : (snapshots.map (·.paneId)).Nodup)
    (hrun : reconcileSessionSnapshots parentId snapshots d = (.ok s, d')) :
    Projected (outline d') s snapshots ↔
      ∀ snapshot ∈ snapshots, ∀ s₀, d.findChildByBackendId parentId .subdocument
        (sessionBackendPrefix ++ snapshot.sessionId) = .ok (some s₀) →
        InPlace (outline d) s₀ snapshots := by
  cases snapshots with
  | nil => cases hrun
  | cons first rest =>
      obtain ⟨hsame, d₁, hs, hv₁, O, hwide, hout⟩ := reconcile_loops hv hrun
      obtain ⟨-, hstep⟩ := ensureSubdocument_outline hv hs (·.session = some first.sessionId)
        fun _ => projectedSession_eq_some
      have hsession : (outline d₁).Has (·.session = some first.sessionId) s := by
        refine (hstep.there ?_).2
        show backendSuffix (some (sessionBackendPrefix ++ _)) sessionBackendPrefix = _
        exact backendSuffix_eq_some.mpr rfl
      have hnopane : ∀ p, ¬ HasPane O p s := by
        intro p hp
        obtain ⟨e, he, -⟩ := id hsession
        exact session_no_pane hsession p (hwide.has_old he hp)
      rw [hout, hwide.projected_iff (wellFormed_outline hv₁) hpanes hnopane]
      -- The session was found, and then nothing moved before the loops, or it was added.
      by_cases hfound : ∃ s₀, d.findChildByBackendId parentId .subdocument
          (sessionBackendPrefix ++ first.sessionId) = .ok (some s₀)
      · obtain ⟨s₀, hs₀⟩ := hfound
        obtain ⟨rfl, hsameOutline⟩ := ensureSubdocument_of_found hs₀ hs
        rw [hsameOutline]
        constructor
        · intro hI snapshot hmem s₁ hs₁
          rw [hsame snapshot hmem, hs₀] at hs₁
          cases hs₁
          exact hI
        · intro hI
          exact hI first (List.mem_cons_self ..) s hs₀
      · have hnot : ∀ c, d.findChildByBackendId parentId .subdocument
            (sessionBackendPrefix ++ first.sessionId) ≠ .ok (some c) := fun c hc => hfound ⟨c, hc⟩
        obtain ⟨hfresh, -, hlt, hadd⟩ := ensureSubdocument_of_not_found hv hnot hs
        rw [hadd]
        constructor
        · intro _ snapshot hmem s₁ hs₁
          rw [hsame snapshot hmem] at hs₁
          exact absurd hs₁ (hnot s₁)
        · intro _
          exact inPlace_added (wellFormed_outline hv) hfresh hlt
            (backendSuffix_session_window first.sessionId) rfl

/-! ### A pane that moves between two windows -/

/-- A pane of one session. -/
def samplePane (windowId paneId : Bytes) : PaneSnapshot :=
  ⟨ascii "main", ascii "$0", windowId, [], paneId, [], false⟩

/-- Two windows; pane `%2` lies in the first one. -/
def beforeMove : List PaneSnapshot :=
  [samplePane (ascii "@1") (ascii "%1"), samplePane (ascii "@1") (ascii "%2"),
    samplePane (ascii "@2") (ascii "%3")]

/-- The same windows; pane `%2` lies in the second one. -/
def afterMove : List PaneSnapshot :=
  [samplePane (ascii "@1") (ascii "%1"), samplePane (ascii "@2") (ascii "%2"),
    samplePane (ascii "@2") (ascii "%3")]

/-- An empty document after a pass over the first snapshot. -/
def projectedBefore : Document := (reconcileSessionSnapshots 1 beforeMove (init 1 [])).2

/-- The same document after a pass over the second one. -/
def projectedAfter : Document := (reconcileSessionSnapshots 1 afterMove projectedBefore).2

theorem valid_projectedBefore : Valid projectedBefore :=
  (reconcileSessionSnapshots_settled 1 beforeMove _ (valid_init 1 [])).1

theorem run_of_ok {α : Type} {m : DocM α} {d : Document} {a : α}
    (h : (m d).1.toOption = some a) : m d = (.ok a, (m d).2) := by
  rcases hm : m d with ⟨_ | b, d'⟩
  · rw [hm] at h
    cases h
  · rw [hm] at h
    cases h
    rfl

theorem leaf_entry {d : Document} {x p : Nat} {paneId : Bytes}
    (h : (d.lookup x).map (fun n => (n.parentId, n.kind, ttyPaneId n.source))
      = some (some p, .ttyLeaf, some paneId)) :
    (outline d).Child p x ∧ HasPane (outline d) paneId x := by
  obtain ⟨n, hn, heq⟩ := Option.map_eq_some_iff.mp h
  simp only [Prod.mk.injEq] at heq
  obtain ⟨hp, hkind, hpane⟩ := heq
  exact ⟨child_outline.mpr ⟨n, hn, hp⟩,
    has_outline.mpr ⟨n, hn, projectedPane_eq_some.mpr ⟨hkind, hpane⟩⟩⟩

/-- Reconciliation of a pane that moved leaves two leaves for it. -/
theorem moved_pane_twice : ¬ ∀ (d d' : Document) (parentId s : Nat) (snapshots : List PaneSnapshot),
    Valid d → (snapshots.map (·.paneId)).Nodup →
    reconcileSessionSnapshots parentId snapshots d = (.ok s, d') →
    Projected (outline d') s snapshots := by
  intro h
  have hP : Projected (outline projectedAfter) 2 afterMove :=
    h projectedBefore projectedAfter 1 2 afterMove valid_projectedBefore (by decide +kernel)
      (run_of_ok (by decide +kernel))
  have hwindow : ∀ {x}, (projectedAfter.lookup x).map (·.parentId) = some (some 2) →
      (outline projectedAfter).Child 2 x := by
    intro x hx
    obtain ⟨n, hn, hp⟩ := Option.map_eq_some_iff.mp hx
    exact child_outline.mpr ⟨n, hn, hp⟩
  have h3 : (outline projectedAfter).Child 2 3 := hwindow (by decide +kernel)
  have h6 : (outline projectedAfter).Child 2 6 := hwindow (by decide +kernel)
  obtain ⟨h5, hp5⟩ : (outline projectedAfter).Child 3 5 ∧
      HasPane (outline projectedAfter) (ascii "%2") 5 := leaf_entry (by decide +kernel)
  obtain ⟨h8, hp8⟩ : (outline projectedAfter).Child 6 8 ∧
      HasPane (outline projectedAfter) (ascii "%2") 8 := leaf_entry (by decide +kernel)
  have hmem : samplePane (ascii "@2") (ascii "%2") ∈ afterMove := by simp [afterMove]
  have heq := (hP.pane _ hmem).unique ⟨h3.under.child h5, hp5⟩ ⟨h6.under.child h8, hp8⟩
  exact absurd heq (by decide)

/-- The first pass over an empty document reaches its snapshot. -/
theorem first_pass_reaches : Projected (outline projectedBefore) 2 beforeMove := by
  have hrun : reconcileSessionSnapshots 1 beforeMove (init 1 []) = (.ok 2, projectedBefore) :=
    run_of_ok (by decide +kernel)
  refine (reconcile_reaches_iff (valid_init 1 []) (by decide +kernel) hrun).mpr ?_
  -- The empty document has no projection of any session.
  intro snapshot hmem s₀ hs₀
  cases hs₀

end Muxly.Daemon
