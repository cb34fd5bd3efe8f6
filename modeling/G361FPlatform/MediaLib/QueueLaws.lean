import G361FPlatform.Library.Waves
import G361FPlatform.MediaLib.LevelLaws

namespace G361FPlatform.MediaLib

open Library

/-- How much can come to wait behind `new` goals, wave by wave, once the levels are the distances to
`old` ones. -/
def CamGraph.width (cam : CamGraph) (old new : List NodeId) (k : Nat) : Nat :=
  Relaxation.width cam.ups cam.node.length old new k

def CamGraph.NarrowFrom (cam : CamGraph) (old new : List NodeId) : Prop :=
  new.length ≤ queueRoom ∧
    ∀ k < cam.node.length + 1, cam.width old new k + cam.width old new (k + 1) ≤ nodeQueueDepth

def CamGraph.Narrow (cam : CamGraph) : Prop :=
  cam.NarrowFrom [] cam.pathPool ∧ cam.NarrowFrom cam.pathPool cam.dstPool

instance (cam : CamGraph) (old new : List NodeId) : Decidable (cam.NarrowFrom old new) :=
  inferInstanceAs (Decidable (_ ∧ _))

instance (cam : CamGraph) : Decidable cam.Narrow := inferInstanceAs (Decidable (_ ∧ _))

section

variable {cam : CamGraph} {fuel : Nat}

theorem CamGraph.NarrowFrom.fitsFrom {old new : List NodeId} (h : cam.NarrowFrom old new)
    (hcam : cam.Wired) (hR : Acyclic cam.Link) {level : NodeId → Nat}
    (hdepth : ∀ v, Depth cam.Link (· ∈ old) v (level v)) : cam.FitsFrom new level := by
  have heq := hcam.up_eq hR
  rw [← heq] at hR hdepth
  have hplaces : ∀ a b, cam.Up a b → a ∈ Finset.range cam.node.length ∧ b ∈ Finset.range cam.node.length :=
    fun _ _ => hcam.sized.mem_range
  refine ⟨h.1, fun fuel => ?_⟩
  refine Relaxation.fits_of_width (fun _ _ => Iff.rfl) hR hplaces (fun k hk => ?_) hdepth fuel
  rw [Finset.card_range] at hk ⊢
  exact h.2 k (Nat.lt_succ_of_le hk)

theorem CamGraph.Narrow.roomy (h : cam.Narrow) (hcam : cam.Wired) (hR : Acyclic cam.Link) :
    cam.Roomy cam.Link :=
  ⟨h.1.fitsFrom hcam hR fun v => ⟨by simp, .inl rfl⟩, fun _ hdepth => h.2.fitsFrom hcam hR hdepth⟩

/-- Where the waves are narrow no push is refused and the search comes through.  On any graph it is
refused one just where more nodes come to wait than the ring takes. -/
theorem neverRefused_of_narrow (hcam : cam.Wired) (hR : Acyclic cam.Link)
    (hfuel : searchFuel cam ≤ fuel) :
    (cam.Narrow → ∃ s', mediaLibSearchRoute cam fuel SearchState.init = .ok (0, s')) ∧
      ((∀ s', mediaLibSearchRoute cam fuel SearchState.init ≠ .ok (-ENOMEM, s')) ↔
        cam.Roomy cam.Link) := by
  rcases mediaLibSearchRoute_wired hcam hR hfuel with ⟨hroomy, s', hsearch, -⟩ | ⟨hfull, s', hsearch⟩
  · refine ⟨fun _ => ⟨s', hsearch⟩, iff_of_true (fun s'' hrefused => ?_) hroomy⟩
    rw [hsearch] at hrefused
    cases hrefused
  · exact ⟨fun hnarrow => absurd (hnarrow.roomy hcam hR) hfull,
      iff_of_false (fun hnever => hnever s' hsearch) hfull⟩

end

theorem neverRefused_smallBoard :
    (smallGraph.Narrow → ∃ s',
      mediaLibSearchRoute smallGraph (searchFuel smallGraph) SearchState.init = .ok (0, s')) ∧
      ((∀ s', mediaLibSearchRoute smallGraph (searchFuel smallGraph) SearchState.init ≠
        .ok (-ENOMEM, s')) ↔ smallGraph.Roomy smallGraph.Link) :=
  neverRefused_of_narrow wired_smallTable acyclic_smallTable le_rfl

example : smallGraph.Narrow := by decide +kernel

def crowdedBoard : MediaDevice where
  entities := [
    ⟨1, "s5k2p2", .subdevSensor, [⟨false, true⟩]⟩,
    ⟨2, "b52isd-IDI1", .other, [⟨true, false⟩, ⟨false, true⟩]⟩,
    ⟨3, "b52isd-Pipeline#1", .other, [⟨true, false⟩, ⟨false, true⟩]⟩] ++
    (List.range 20).map fun i => ⟨4 + i, "b52isd-output", .devnodeV4l, [⟨true, false⟩]⟩
  links := [⟨⟨0, 0⟩, ⟨1, 0⟩⟩, ⟨⟨1, 1⟩, ⟨2, 0⟩⟩] ++ (List.range 20).map fun i => ⟨⟨2, 1⟩, ⟨3 + i, 0⟩⟩

def crowdedTable : NodeTable :=
  (createNodes crowdedBoard (fun _ => true) ME_CNT NodeTable.empty).get rfl

def crowdedGraph : CamGraph := findNodes crowdedBoard crowdedTable

theorem not_neverRefused_crowdedBoard : crowdedGraph.Wired ∧ Acyclic crowdedGraph.Link ∧
    ∃ s', mediaLibSearchRoute crowdedGraph (searchFuel crowdedGraph) SearchState.init =
      .ok (-ENOMEM, s') := by
  have htable : createNodes crowdedBoard (fun _ => true) ME_CNT NodeTable.empty = some crowdedTable :=
    rfl
  have hwired := wired_findNodes (created_of_init htable).1 (by decide +kernel) (by decide +kernel)
  refine ⟨hwired, acyclic_findNodes (by decide +kernel), ?_⟩
  have hseen :
      (mediaLibSearchRoute crowdedGraph (searchFuel crowdedGraph) SearchState.init).toOption.map (·.1) =
        some (-ENOMEM) := by decide +kernel
  obtain ⟨⟨ret, s'⟩, hsearch, rfl⟩ := exists_of_map_eq_some hseen
  exact ⟨s', hsearch⟩

end G361FPlatform.MediaLib
