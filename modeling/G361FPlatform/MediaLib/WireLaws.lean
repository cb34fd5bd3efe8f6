import G361FPlatform.Library.Digraph
import G361FPlatform.MediaLib.NodeLaws

namespace G361FPlatform.MediaLib

open Library

namespace CamGraph

def Link (cam : CamGraph) (u v : NodeId) : Prop :=
  ∃ w, ∃ l ∈ cam.linksOf w, l.src = some u ∧ l.dst = some v

/-- A link graph: both ends of a link are nodes, and the link is in the lists of both. -/
structure Wired (cam : CamGraph) : Prop where
  ends : ∀ v, ∀ l ∈ cam.linksOf v,
    ∃ src dst, l.src = some src ∧ l.dst = some dst ∧ (src = v ∨ dst = v) ∧
    src < cam.node.length ∧ dst < cam.node.length
  backlink : ∀ v, ∀ l ∈ cam.linksOf v, ∀ w, l.dst = some w →
    ∃ l' ∈ cam.linksOf w, l'.src = l.src ∧ l'.dst = some w
  size : cam.node.length ≤ ME_CNT

/-- A link graph in which the links that leave a node are in its list, too. -/
structure Meshed (cam : CamGraph) : Prop extends cam.Wired where
  forelink : ∀ v, ∀ l ∈ cam.linksOf v, ∀ w, l.src = some w →
    ∃ l' ∈ cam.linksOf w, l'.src = some w ∧ l'.dst = l.dst

def upstream (node : NodeId) (ls : List CamLink) : List NodeId :=
  ls.filterMap fun l => if l.src = some node then none else l.src

def ups (cam : CamGraph) (node : NodeId) : List NodeId := upstream node (cam.linksOf node)

def Up (cam : CamGraph) (u v : NodeId) : Prop := u ∈ cam.ups v

def Down (cam : CamGraph) (u v : NodeId) : Prop := ∃ l ∈ cam.linksOf u, l.dst = some v ∧ v ≠ u

/-- A link in a node's list that ends elsewhere starts at the node. -/
def Outbound (cam : CamGraph) : Prop :=
  ∀ v, ∀ l ∈ cam.linksOf v, ∀ dst, l.dst = some dst → dst ≠ v → l.src = some v

def Sourced (cam : CamGraph) (node : NodeId) : Prop := ∀ l ∈ cam.linksOf node, l.src ≠ none

structure Sized (cam : CamGraph) : Prop where
  up_lt : ∀ u v, cam.Up u v → u < cam.node.length ∧ v < cam.node.length
  down_lt : ∀ u v, cam.Down u v → u < cam.node.length ∧ v < cam.node.length
  size : cam.node.length ≤ ME_CNT

variable {cam : CamGraph} {u v : NodeId}

theorem Wired.link_lt (hcam : cam.Wired) (h : cam.Link u v) :
    u < cam.node.length ∧ v < cam.node.length := by
  obtain ⟨w, l, hl, hsrc, hdst⟩ := h
  obtain ⟨src, dst, hsrc', hdst', -, hlt⟩ := hcam.ends w l hl
  cases hsrc.symm.trans hsrc'
  cases hdst.symm.trans hdst'
  exact hlt

theorem Wired.link_of_up (hcam : cam.Wired) (h : cam.Up u v) : cam.Link u v := by
  obtain ⟨l, hl, hu⟩ := List.mem_filterMap.mp h
  obtain ⟨src, dst, hsrc, hdst, hend, -⟩ := hcam.ends v l hl
  split at hu
  · cases hu
  next hne =>
    have hv : dst = v := hend.resolve_left fun h => hne (h ▸ hsrc)
    exact ⟨v, l, hl, hu, hv ▸ hdst⟩

theorem Wired.link_of_down (hcam : cam.Wired) (h : cam.Down u v) : cam.Link u v := by
  obtain ⟨l, hl, hdst, hne⟩ := h
  obtain ⟨src, dst, hsrc, hdst', hend, -⟩ := hcam.ends u l hl
  cases hdst.symm.trans hdst'
  have hself : src = u := hend.resolve_right hne
  exact ⟨u, l, hl, hself ▸ hsrc, hdst⟩

theorem Wired.up_eq (hcam : cam.Wired) (hR : Acyclic cam.Link) : cam.Up = cam.Link := by
  funext u v
  refine propext ⟨hcam.link_of_up, fun h => ?_⟩
  obtain ⟨w, l, hl, hsrc, hdst⟩ := id h
  obtain ⟨l', hl', hsrc', hdst'⟩ := hcam.backlink w l hl v hdst
  have hne : l'.src ≠ some v := by
    rw [hsrc', hsrc]
    exact fun heq => hR.ne h (Option.some.inj heq)
  exact List.mem_filterMap.mpr ⟨l', hl', by rw [if_neg hne, hsrc', hsrc]⟩

theorem Meshed.down_eq (hcam : cam.Meshed) (hR : Acyclic cam.Link) : cam.Down = cam.Link := by
  funext u v
  refine propext ⟨hcam.toWired.link_of_down, fun h => ?_⟩
  obtain ⟨w, l, hl, hsrc, hdst⟩ := id h
  obtain ⟨l', hl', -, hdst'⟩ := hcam.forelink w l hl u hsrc
  exact ⟨l', hl', hdst'.trans hdst, (hR.ne h).symm⟩

theorem Wired.sized (hcam : cam.Wired) : cam.Sized where
  up_lt := fun _ _ h => hcam.link_lt (hcam.link_of_up h)
  down_lt := fun _ _ h => hcam.link_lt (hcam.link_of_down h)
  size := hcam.size

theorem Wired.outbound (hcam : cam.Wired) : cam.Outbound := by
  intro v l hl dst hdst hne
  obtain ⟨src, dst', hsrc, hdst', hend, -⟩ := hcam.ends v l hl
  cases hdst.symm.trans hdst'
  rw [hsrc, hend.resolve_right hne]

theorem Wired.sourced (hcam : cam.Wired) (node : NodeId) : cam.Sourced node := by
  intro l hl hnone
  obtain ⟨src, _, hsrc, -⟩ := hcam.ends node l hl
  rw [hnone] at hsrc
  cases hsrc

theorem Sized.mem_range (hcam : cam.Sized) (h : cam.Up u v) :
    u ∈ Finset.range cam.node.length ∧ v ∈ Finset.range cam.node.length :=
  (hcam.up_lt u v h).imp Finset.mem_range.mpr Finset.mem_range.mpr

end CamGraph

section

variable {media : MediaDevice} {t : NodeTable} {node u v : NodeId}

theorem mem_linksOf_findNodes {l : CamLink} (h : l ∈ (findNodes media t).linksOf node) :
    ∃ me, t.me[node]? = some me ∧ l.mlink ∈ media.linksOf me ∧
    l.src = t.container l.mlink.source.entity ∧
      l.dst = t.container l.mlink.sink.entity := by
  simp only [CamGraph.linksOf, findNodes, List.getElem?_mapIdx] at h
  cases hme : t.me[node]? with
  | none => simp [hme] at h
  | some me =>
    simp only [hme, Option.map_some, Option.elim_some, camNodeSetup, List.mem_mapIdx] at h
    obtain ⟨i, hi, rfl⟩ := h
    exact ⟨me, rfl, List.getElem_mem hi, rfl, rfl⟩

theorem exists_mem_linksOf_findNodes {me : EntityId} (hme : t.me[node]? = some me) {m : MediaLink}
    (hm : m ∈ media.linksOf me) : ∃ l ∈ (findNodes media t).linksOf node, l.mlink = m := by
  obtain ⟨i, hi, rfl⟩ := List.mem_iff_getElem.mp hm
  simp only [CamGraph.linksOf, findNodes, List.getElem?_mapIdx, hme, Option.map_some, Option.elim_some,
    camNodeSetup,
    List.mem_mapIdx]
  exact ⟨_, ⟨i, hi, rfl⟩, rfl⟩

theorem length_findNodes : (findNodes media t).node.length = t.me.length := by simp [findNodes]

theorem lt_of_mem_linksOf {l : CamLink} (h : l ∈ (findNodes media t).linksOf node) :
    node < (findNodes media t).node.length := by
  obtain ⟨me, hme, -⟩ := mem_linksOf_findNodes h
  rw [length_findNodes]
  exact (List.getElem?_eq_some_iff.mp hme).1

theorem sized_findNodes (ht : Created media t) : (findNodes media t).Sized where
  up_lt := by
    intro u v h
    obtain ⟨l, hl, hu⟩ := List.mem_filterMap.mp h
    refine ⟨?_, lt_of_mem_linksOf hl⟩
    obtain ⟨-, -, -, hsrc, -⟩ := mem_linksOf_findNodes hl
    split at hu
    · cases hu
    · rw [length_findNodes]
      exact (List.getElem?_eq_some_iff.mp (ht.linked.node _ u (hsrc.symm.trans hu))).1
  down_lt := by
    rintro u v ⟨l, hl, hv, -⟩
    obtain ⟨-, -, -, -, hdst⟩ := mem_linksOf_findNodes hl
    rw [length_findNodes]
    exact ⟨length_findNodes ▸ lt_of_mem_linksOf hl,
      (List.getElem?_eq_some_iff.mp (ht.linked.node _ v (hdst.symm.trans hv))).1⟩
  size := length_findNodes.trans_le ht.length_le

theorem wired_findNodes (ht : Created media t) (hnodup : t.me.Nodup)
    (hends : ∀ l ∈ media.links, l.source.entity ∈ t.me ∧ l.sink.entity ∈ t.me) :
    (findNodes media t).Wired where
  ends := by
    intro v l hl
    obtain ⟨me, hme, hmem, hsrc, hdst⟩ := mem_linksOf_findNodes hl
    obtain ⟨hlink, hend⟩ := MediaDevice.mem_linksOf.mp hmem
    obtain ⟨src, hsrcEq⟩ := ht.linked.container _ (hends _ hlink).1
    obtain ⟨dst, hdstEq⟩ := ht.linked.container _ (hends _ hlink).2
    have hself := ht.linked.container_eq hnodup hme
    refine ⟨src, dst, hsrc.trans hsrcEq, hdst.trans hdstEq,
      hend.imp (fun h => ?_) (fun h => ?_), ?_, ?_⟩
    · rw [h, hself, Option.some.injEq] at hsrcEq
      exact hsrcEq.symm
    · rw [h, hself, Option.some.injEq] at hdstEq
      exact hdstEq.symm
    · exact length_findNodes ▸ (List.getElem?_eq_some_iff.mp (ht.linked.node _ _ hsrcEq)).1
    · exact length_findNodes ▸ (List.getElem?_eq_some_iff.mp (ht.linked.node _ _ hdstEq)).1
  backlink := by
    intro v l hl w hw
    obtain ⟨_, -, hmem, hsrc, hdst⟩ := mem_linksOf_findNodes hl
    have hme := ht.linked.node _ w (hdst.symm.trans hw)
    have hback : l.mlink ∈ media.linksOf l.mlink.sink.entity :=
      MediaDevice.mem_linksOf.mpr ⟨(MediaDevice.mem_linksOf.mp hmem).1, .inr rfl⟩
    obtain ⟨l', hl', hmlink⟩ := exists_mem_linksOf_findNodes hme hback
    obtain ⟨-, -, -, hsrc', hdst'⟩ := mem_linksOf_findNodes hl'
    exact ⟨l', hl', by rw [hsrc', hsrc, hmlink], by rw [hdst', hmlink, ← hdst, hw]⟩
  size := length_findNodes.trans_le ht.length_le

theorem meshed_findNodes (ht : Created media t) (hnodup : t.me.Nodup)
    (hends : ∀ l ∈ media.links, l.source.entity ∈ t.me ∧ l.sink.entity ∈ t.me) :
    (findNodes media t).Meshed where
  toWired := wired_findNodes ht hnodup hends
  forelink := by
    intro v l hl w hw
    obtain ⟨_, -, hmem, hsrc, hdst⟩ := mem_linksOf_findNodes hl
    have hme := ht.linked.node _ w (hsrc.symm.trans hw)
    have hfore : l.mlink ∈ media.linksOf l.mlink.source.entity :=
      MediaDevice.mem_linksOf.mpr ⟨(MediaDevice.mem_linksOf.mp hmem).1, .inl rfl⟩
    obtain ⟨l', hl', hmlink⟩ := exists_mem_linksOf_findNodes hme hfore
    obtain ⟨-, -, -, hsrc', hdst'⟩ := mem_linksOf_findNodes hl'
    exact ⟨l', hl', by rw [hsrc', hmlink, ← hsrc, hw], by rw [hdst', hmlink, hdst]⟩

theorem link_findNodes (h : (findNodes media t).Link u v) :
    ∃ l ∈ media.links, t.container l.source.entity = some u ∧ t.container l.sink.entity = some v := by
  obtain ⟨w, l, hl, hu, hv⟩ := h
  obtain ⟨_, -, hmem, hsrc, hdst⟩ := mem_linksOf_findNodes hl
  exact ⟨l.mlink, (MediaDevice.mem_linksOf.mp hmem).1, hsrc.symm.trans hu, hdst.symm.trans hv⟩

theorem acyclic_findNodes (hlinks : ∀ l ∈ media.links, ∀ u ∈ t.container l.source.entity,
    ∀ v ∈ t.container l.sink.entity, u < v) : Acyclic (findNodes media t).Link := by
  refine acyclic_of_lt fun u v h => ?_
  obtain ⟨l, hl, hu, hv⟩ := link_findNodes h
  exact hlinks l hl u hu v hv

def NodeTable.Canon (t : NodeTable) (node : NodeId) : Prop :=
  ∀ me, t.me[node]? = some me → t.container me = some node

theorem Created.canon_of_down (ht : Created media t) (h : (findNodes media t).Down u v) :
    t.Canon v := by
  obtain ⟨l, hl, hv, -⟩ := h
  obtain ⟨-, -, -, -, hdst⟩ := mem_linksOf_findNodes hl
  have hsink := hdst.symm.trans hv
  intro me hme
  cases (ht.linked.node _ v hsink).symm.trans hme
  exact hsink

theorem link_of_down_of_canon (hu : t.Canon u) (h : (findNodes media t).Down u v) :
    (findNodes media t).Link u v := by
  obtain ⟨l, hl, hv, hne⟩ := h
  obtain ⟨me, hme, hmem, hsrc, hdst⟩ := mem_linksOf_findNodes hl
  have hself := hu me hme
  rcases (MediaDevice.mem_linksOf.mp hmem).2 with hend | hend
  · exact ⟨u, l, hl, by rw [hsrc, hend, hself], hv⟩
  · rw [hdst, hend, hself] at hv
    exact absurd (Option.some.inj hv).symm hne

theorem Created.acyclic_down (ht : Created media t) (hR : Acyclic (findNodes media t).Link) :
    Acyclic (findNodes media t).Down := by
  have hlinks : ∀ {a b}, t.Canon a → Relation.TransGen (findNodes media t).Down a b →
      Relation.TransGen (findNodes media t).Link a b ∧ t.Canon b := by
    intro a b ha hab
    induction hab with
    | single hstep => exact ⟨.single (link_of_down_of_canon ha hstep), ht.canon_of_down hstep⟩
    | tail _ hstep ih => exact ⟨ih.1.tail (link_of_down_of_canon ih.2 hstep), ht.canon_of_down hstep⟩
  intro a hcycle
  obtain ⟨b, -, hlast⟩ := Relation.TransGen.tail'_iff.mp hcycle
  exact hR a (hlinks (ht.canon_of_down hlast) hcycle).1

theorem created_of_mediaLibInit {k : Kernel} {fuel : Nat} {mediaOpen : Option MediaDevice}
    {alloc : Nat → Bool}
    {cam : PlatCam} {s : CamState} (h : mediaLibInit k fuel mediaOpen alloc = .ok (some (cam, s))) :
    ∃ t, Created cam.media t ∧ cam.toCamGraph = findNodes cam.media t := by
  unfold mediaLibInit at h
  split at h
  · cases h
  · split at h
    · cases h
    next t ht =>
      obtain ⟨found, node, -, rfl, -⟩ := initRoutes_eq_some h
      exact ⟨t, (created_of_init ht).1, rfl⟩

end

def smallTable : NodeTable := (createNodes smallBoard (fun _ => true) ME_CNT NodeTable.empty).get rfl

theorem smallTable_eq :
    createNodes smallBoard (fun _ => true) ME_CNT NodeTable.empty = some smallTable := rfl

theorem meshed_smallTable : (findNodes smallBoard smallTable).Meshed :=
  meshed_findNodes (created_of_init smallTable_eq).1 (by decide +kernel) (by decide +kernel)

theorem wired_smallTable : (findNodes smallBoard smallTable).Wired := meshed_smallTable.toWired

theorem acyclic_smallTable : Acyclic (findNodes smallBoard smallTable).Link :=
  acyclic_findNodes (by decide +kernel)

end G361FPlatform.MediaLib
