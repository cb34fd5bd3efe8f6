import G361FPlatform.MediaLib.InitLaws

namespace G361FPlatform.MediaLib

open Library

namespace NodeTable

structure Linked (t : NodeTable) : Prop where
  node : ∀ me i, t.container me = some i → t.me[i]? = some me
  container : ∀ me ∈ t.me, ∃ i, t.container me = some i

theorem linked_empty : empty.Linked := ⟨by simp [empty], by simp [empty]⟩

theorem Linked.camNodeCreate {t : NodeTable} (h : t.Linked) (me : EntityId) :
    (t.camNodeCreate me).Linked where
  node := by
    intro me' i hi
    simp only [NodeTable.camNodeCreate, Function.update_apply] at hi ⊢
    split at hi
    next heq =>
      cases hi
      rw [List.getElem?_concat_length, heq]
    · have hold := h.node me' i hi
      rwa [List.getElem?_append_left (List.getElem?_eq_some_iff.mp hold).1]
  container := by
    intro me' hme'
    simp only [NodeTable.camNodeCreate, Function.update_apply, List.mem_append, List.mem_singleton] at hme' ⊢
    split
    · exact ⟨_, rfl⟩
    next hne => exact h.container me' (hme'.resolve_right hne)

theorem Linked.container_eq {t : NodeTable} (h : t.Linked) (hnodup : t.me.Nodup) {i : NodeId} {me : EntityId}
    (hi : t.me[i]? = some me) : t.container me = some i := by
  obtain ⟨j, hj⟩ := h.container me (List.mem_of_getElem? hi)
  have hlt := (List.getElem?_eq_some_iff.mp hi).1
  rw [hj, (List.getElem?_inj hlt hnodup).mp (hi.trans (h.node me j hj).symm)]

end NodeTable

/-- A table the loop can have built: node `i` is what the query of round `i` gave. -/
structure Created (media : MediaDevice) (t : NodeTable) : Prop where
  linked : t.Linked
  me : ∀ i me, t.me[i]? = some me → media.mediaGetEntityByIdNext i = some me
  length_le : t.me.length ≤ ME_CNT

section

variable {media : MediaDevice} {alloc : Nat → Bool} {t : NodeTable}

theorem created_empty (media : MediaDevice) : Created media NodeTable.empty :=
  ⟨NodeTable.linked_empty, by simp [NodeTable.empty], Nat.zero_le _⟩

theorem Created.camNodeCreate (h : Created media t) {me : EntityId}
    (hme : media.mediaGetEntityByIdNext t.me.length = some me) (hlt : t.me.length < ME_CNT) :
    Created media (t.camNodeCreate me) where
  linked := h.linked.camNodeCreate me
  me := by
    intro i me' hi
    rcases Nat.lt_or_ge i t.me.length with hi' | hi'
    · exact h.me i me' (by rwa [NodeTable.camNodeCreate, List.getElem?_append_left hi'] at hi)
    · have hlen := (List.getElem?_eq_some_iff.mp hi).1
      simp only [NodeTable.camNodeCreate, List.length_append, List.length_singleton] at hlen
      have heq : i = t.me.length := by omega
      subst heq
      rw [NodeTable.camNodeCreate, List.getElem?_concat_length] at hi
      rw [hme, hi]
  length_le := by
    rw [NodeTable.camNodeCreate, List.length_append]
    exact hlt

theorem created_of_createNodes {n : Nat} {t₀ : NodeTable} (h₀ : Created media t₀)
    (hn : t₀.me.length + n = ME_CNT) (h : createNodes media alloc n t₀ = some t) :
    Created media t ∧ (t.me.length < ME_CNT → media.mediaGetEntityByIdNext t.me.length = none) := by
  induction n generalizing t₀ with
  | zero =>
    cases h
    exact ⟨h₀, fun hlt => by omega⟩
  | succ n ih =>
    unfold createNodes at h
    split at h
    next hnone =>
      cases h
      exact ⟨h₀, fun _ => hnone⟩
    next me hme =>
      split at h
      · refine ih (h₀.camNodeCreate hme (by omega)) ?_ h
        rw [NodeTable.camNodeCreate, List.length_append, List.length_singleton]
        omega
      · cases h

theorem created_of_init (h : createNodes media alloc ME_CNT NodeTable.empty = some t) :
    Created media t ∧ (t.me.length < ME_CNT → media.mediaGetEntityByIdNext t.me.length = none) :=
  created_of_createNodes (created_empty media) (Nat.zero_add _) h

end

namespace MediaDevice

/-- Entities are enumerated in the order of their ids. -/
structure IdsIncrease (media : MediaDevice) : Prop where
  pairwise : media.entities.Pairwise fun e e' => e.id < e'.id
  pos : ∀ e ∈ media.entities, 0 < e.id

/-- The first `min(n, ME_CNT - 1)` entities have the ids 1, 2, 3 and so on. -/
def IdsDense (media : MediaDevice) : Prop :=
  ∀ i e, i < ME_CNT - 1 → media.entities[i]? = some e → e.id = i + 1

variable {media : MediaDevice}

theorem IdsIncrease.lt (h : media.IdsIncrease) {i : Nat} {e : MediaEntity} (he : media.entities[i]? = some e) :
    i < e.id := by
  induction i generalizing e with
  | zero => exact h.pos e (List.mem_of_getElem? he)
  | succ i ih =>
    obtain ⟨hlt, rfl⟩ := List.getElem?_eq_some_iff.mp he
    have hstep := List.pairwise_iff_getElem.mp h.pairwise i (i + 1) (by omega) hlt (Nat.lt_succ_self i)
    have hprev := ih (List.getElem?_eq_getElem (by omega))
    omega

theorem next_eq_some_iff (h : media.IdsIncrease) (i : Nat) :
    media.mediaGetEntityByIdNext i = some i ↔
      i < media.entities.length ∧ ∀ j e, j < i → media.entities[j]? = some e → e.id ≤ i := by
  rw [mediaGetEntityByIdNext, List.findIdx?_eq_some_iff_getElem]
  constructor
  · rintro ⟨hlt, -, hbefore⟩
    refine ⟨hlt, fun j e hj he => ?_⟩
    obtain ⟨hjlt, rfl⟩ := List.getElem?_eq_some_iff.mp he
    simpa using hbefore j hj
  · rintro ⟨hlt, hbefore⟩
    have hid := h.lt (List.getElem?_eq_getElem hlt)
    refine ⟨hlt, by simpa using hid, fun j hj => ?_⟩
    simpa using hbefore j _ hj (List.getElem?_eq_getElem (by omega))

theorem next_eq_none_iff (i : Nat) :
    media.mediaGetEntityByIdNext i = none ↔ ∀ e ∈ media.entities, e.id ≤ i := by
  simp [mediaGetEntityByIdNext, List.findIdx?_eq_none_iff]

end MediaDevice

/-- One node for each of the first `min(n, ME_CNT)` entities, in their order. -/
structure Faithful (media : MediaDevice) (t : NodeTable) : Prop where
  me : t.me = List.range (min media.entities.length ME_CNT)
  container : ∀ i < min media.entities.length ME_CNT, t.container i = some i
  src : ((findNodes media t).srcPool.map (findNodes media t).meOf).Nodup
  dst : ((findNodes media t).dstPool.map (findNodes media t).meOf).Nodup

section

variable {media : MediaDevice} {alloc : Nat → Bool} {t : NodeTable}

theorem meOf_findNodes (node : NodeId) : (findNodes media t).meOf node = (t.me[node]?).getD 0 := by
  simp only [CamGraph.meOf, findNodes, List.getElem?_mapIdx]
  cases t.me[node]? <;> rfl

theorem nodup_meOf_filter (hnodup : t.me.Nodup) (p : NodeId → Bool) :
    (((List.range t.me.length).filter p).map (findNodes media t).meOf).Nodup := by
  refine (List.Nodup.filter p List.nodup_range).map_on fun i hi j hj heq => ?_
  have hi' := List.mem_range.mp (List.mem_of_mem_filter hi)
  have hj' := List.mem_range.mp (List.mem_of_mem_filter hj)
  rw [meOf_findNodes, meOf_findNodes, List.getElem?_eq_getElem hi', List.getElem?_eq_getElem hj'] at heq
  exact (hnodup.getElem_inj_iff).mp heq

theorem faithful_of_me_eq (ht : Created media t) (h : t.me = List.range (min media.entities.length ME_CNT)) :
    Faithful media t := by
  have hnodup : t.me.Nodup := h ▸ List.nodup_range
  refine ⟨h, fun i hi => ?_, nodup_meOf_filter hnodup _, nodup_meOf_filter hnodup _⟩
  exact ht.linked.container_eq hnodup (by rw [h, List.getElem?_range hi])

/-- The creation loop makes one node for each entity exactly where the ids have no gap. -/
theorem faithful_iff (hids : media.IdsIncrease) (h : createNodes media alloc ME_CNT NodeTable.empty = some t) :
    Faithful media t ↔ media.IdsDense := by
  obtain ⟨ht, hend⟩ := created_of_init h
  constructor
  · rintro ⟨hme, -⟩ i e hi he
    have hlen : t.me.length = min media.entities.length ME_CNT := by rw [hme, List.length_range]
    have hlt := (List.getElem?_eq_some_iff.mp he).1
    have hge := hids.lt he
    -- the query after this entity's round sees an id that is too large
    have hle : e.id ≤ i + 1 := by
      rcases Nat.lt_or_ge (i + 1) media.entities.length with hnext | hlast
      · have hround := ht.me (i + 1) (i + 1) (by rw [hme, List.getElem?_range (by omega)])
        exact ((MediaDevice.next_eq_some_iff hids (i + 1)).mp hround).2 i e (Nat.lt_succ_self i) he
      · have hcnt : t.me.length = i + 1 := by omega
        have hround := hend (by omega)
        rw [hcnt] at hround
        exact (MediaDevice.next_eq_none_iff (i + 1)).mp hround e (List.mem_of_getElem? he)
    omega
  · intro hdense
    refine faithful_of_me_eq ht ?_
    have hnext : ∀ i < min media.entities.length ME_CNT, media.mediaGetEntityByIdNext i = some i := by
      intro i hi
      refine (MediaDevice.next_eq_some_iff hids i).mpr ⟨by omega, fun j e hj he => ?_⟩
      have hid := hdense j e (by omega) he
      omega
    have hlen : t.me.length = min media.entities.length ME_CNT := by
      refine Nat.le_antisymm (Nat.le_min.mpr ⟨?_, ht.length_le⟩) ?_
      · by_contra hgt
        have hround := ht.me media.entities.length _ (List.getElem?_eq_getElem (Nat.not_le.mp hgt))
        obtain ⟨hlt, hid, -⟩ := List.findIdx?_eq_some_iff_getElem.mp hround
        have hdense' := hdense _ _ (by have := ht.length_le; omega) (List.getElem?_eq_getElem hlt)
        simp only [decide_eq_true_eq] at hid
        omega
      · by_contra hgt
        have hround := hend (by omega)
        rw [hnext _ (by omega)] at hround
        cases hround
    refine List.ext_getElem (by rw [hlen, List.length_range]) fun i hi hi' => ?_
    rw [List.getElem_range]
    have hround := ht.me i _ (List.getElem?_eq_getElem hi)
    rw [hnext i (by omega)] at hround
    exact (Option.some.inj hround).symm

end

theorem faithful_smallBoard :
    ∃ t, createNodes smallBoard (fun _ => true) ME_CNT NodeTable.empty = some t ∧
    (Faithful smallBoard t ↔ smallBoard.IdsDense) := by
  have hids : smallBoard.IdsIncrease := ⟨by decide, by decide⟩
  obtain ⟨t, ht⟩ := Option.isSome_iff_exists.mp
    (show (createNodes smallBoard (fun _ => true) ME_CNT NodeTable.empty).isSome from rfl)
  exact ⟨t, ht, faithful_iff hids ht⟩

def gapBoard : MediaDevice where
  entities := [
    ⟨1, "s5k2p2", .subdevSensor, [⟨false, true⟩]⟩,
    ⟨3, "b52isd-output0", .devnodeV4l, [⟨true, false⟩]⟩]
  links := []

theorem not_faithful_gapBoard : gapBoard.IdsIncrease ∧
    ∃ t, createNodes gapBoard (fun _ => true) ME_CNT NodeTable.empty = some t ∧ ¬Faithful gapBoard t := by
  refine ⟨⟨by decide, by decide⟩, _, rfl, fun h => ?_⟩
  exact absurd h.me (by decide)

end G361FPlatform.MediaLib
