import G361FPlatform.MediaLib.OwnerRunLaws

namespace G361FPlatform.MediaLib

open Library Outcome

/-- A device has at most one descriptor open, the one in `me->fd`, as long as a node of it is
counted or a port has it open; and that is the descriptor all of them were given. -/
structure SingleOwner (cam : PlatCam) (L : Ledger) (s : CamState) : Prop where
  single : ∀ me, s.files.countP (·.2 = me) ≤ 1
  fd_eq : ∀ f ∈ s.files, s.fd f.2 = f.1
  isOpen : ∀ me, 0 ≤ s.fd me → (s.fd me, me) ∈ s.files
  held : ∀ me, 0 ≤ s.fd me ↔ (∃ n, cam.meOf n = me ∧ 0 < s.openCnt n) ∨ (L.port me).isSome
  got_fd : ∀ n, ∀ fd ∈ L.got n, s.fd (cam.meOf n) = fd ∧ (fd, cam.meOf n) ∈ s.files
  port_fd : ∀ me id fd, L.port me = some (id, fd) → s.fd me = fd ∧ (fd, me) ∈ s.files

section

variable {cam : PlatCam} {k : Kernel} {L : Ledger} {s s₀ : CamState} {fuel : Nat}

theorem Files.single (h : Files s) (me : EntityId) : s.files.countP (·.2 = me) ≤ 1 := by
  have hcount := List.nodup_iff_count_le_one.mp h.nodup (s.fd me)
  refine le_trans ?_ hcount
  rw [List.count, List.countP_map]
  refine List.countP_mono_left fun f hf hme => ?_
  simp only [decide_eq_true_eq] at hme
  simpa [hme] using (h.fd_eq f hf).symm

theorem Owned.singleOwner (h : Owned cam L s) : SingleOwner cam L s where
  single := h.files.single
  fd_eq := h.files.fd_eq
  isOpen := h.files.mem
  held := h.held
  got_fd := by
    intro n fd hfd
    have heq := h.got_fd n fd hfd
    have hopen : 0 ≤ s.fd (cam.meOf n) := (h.held _).mpr (.inl ⟨n, rfl, h.pos_of_got hfd⟩)
    exact ⟨heq, heq ▸ h.files.mem _ hopen⟩
  port_fd := by
    intro me id fd hport
    have heq := h.port_fd me id fd hport
    have hopen : 0 ≤ s.fd me := (h.held me).mpr (.inr (by rw [hport]; rfl))
    exact ⟨heq, heq ▸ h.files.mem _ hopen⟩

theorem owned_init (cam : PlatCam) (nodeFlags : NodeId → BitVec 32) :
    Owned cam .empty (CamState.init nodeFlags) where
  files := ⟨by simp [CamState.init], by simp [CamState.init], by simp [CamState.init],
    fun _ _ => rfl, by simp [CamState.init]⟩
  held := by simp [CamState.init, Ledger.empty]
  alone := by simp [CamState.init]
  apart := by simp [CamState.init]
  got_le := by simp [CamState.init, Ledger.empty]
  got_fd := by simp [Ledger.empty]
  port_fd := by simp [Ledger.empty]

theorem owned_of_mediaLibInit (hk : k.Opens) {mediaOpen : Option MediaDevice} {alloc : Nat → Bool}
    (h : mediaLibInit k fuel mediaOpen alloc = .ok (some (cam, s₀))) : Owned cam .empty s₀ := by
  obtain ⟨_, node, _, -, -, rfl⟩ := mediaLibInit_eq_some h
  obtain ⟨fd, s', hopen, -, -, -, howned⟩ :=
    (owned_init cam (typeFlags cam.toCamGraph)).camNodeOpen (n := node) hk (.inr (show (-1 : Int) < 0 by decide))
  rwa [hopen]

theorem Owned.of_ownerRun (hcam : cam.Searched) (hk : k.Opens) (h₀ : Owned cam .empty s₀)
    (hrun : OwnerRun cam k fuel (fun L s c => c.Separate cam L s) s₀ L s) : Owned cam L s := by
  induction hrun with
  | start => exact h₀
  | step _ hkill hbal hsep hc ih => exact ih.exec hcam hk hkill hbal hsep hc

theorem exists_ownerRun {calls : List Call}
    (hkill : ∀ c ∈ calls, ∀ ctxID, c ≠ .contextKill ctxID)
    (hbal : ∀ c ∈ calls, ∀ L s, c.Balanced cam L s) {s₁ : CamState}
    (h : OwnerRun cam k fuel (fun _ _ _ => True) s₀ L s₁)
    (hrun : runCalls cam k fuel calls s₁ = .ok s) :
    ∃ L', OwnerRun cam k fuel (fun _ _ _ => True) s₀ L' s := by
  induction calls generalizing L s₁ with
  | nil =>
    cases hrun
    exact ⟨L, h⟩
  | cons c calls ih =>
    unfold runCalls at hrun
    split at hrun
    · cases hrun
    next ret s₂ hc =>
      have hc' := List.mem_cons_self (a := c) (l := calls)
      exact ih (fun c hc => hkill c (List.mem_cons_of_mem _ hc))
        (fun c hc => hbal c (List.mem_cons_of_mem _ hc))
        (h.step (hkill c hc') (hbal c hc' L s₁) trivial hc) hrun

end

/-- Every run whose calls keep the counted opens and the ports apart has single owners. -/
theorem singleOwner_of_ownerRun {k : Kernel} {fuel fuel' : Nat} {mediaOpen : Option MediaDevice}
    {alloc : Nat → Bool} {cam : PlatCam} {s₀ : CamState}
    (h : mediaLibInit k fuel mediaOpen alloc = .ok (some (cam, s₀))) (hk : k.Opens) {L : Ledger}
    {s : CamState} (hrun : OwnerRun cam k fuel' (fun L s c => c.Separate cam L s) s₀ L s) :
    SingleOwner cam L s :=
  ((owned_of_mediaLibInit hk h).of_ownerRun (initialised_of_mediaLibInit h).searched hk
    hrun).singleOwner

theorem opens_readyKernel : readyKernel.Opens := by
  intro n used
  have hfree : ∃ i < used.length + 1, (i : Int) + 4 ∉ used := by
    by_contra hall
    push Not at hall
    have hsub : (List.range (used.length + 1)).map (fun i : Nat => (i : Int) + 4) ⊆ used := by
      intro x hx
      obtain ⟨i, hi, rfl⟩ := List.mem_map.mp hx
      exact hall i (List.mem_range.mp hi)
    have hnodup : ((List.range (used.length + 1)).map fun i : Nat => (i : Int) + 4).Nodup :=
      List.nodup_range.map fun i j hij => by simpa using hij
    have hle := (List.subperm_of_subset hnodup hsub).length_le
    simp only [List.length_map, List.length_range] at hle
    omega
  obtain ⟨i, hi, hnot⟩ := hfree
  have hmem : (i : Int) + 4 ∈ (List.range (used.length + 1)).map fun i : Nat => (i : Int) + 4 :=
    List.mem_map_of_mem (List.mem_range.mpr hi)
  cases hfind : ((List.range (used.length + 1)).map fun i : Nat => (i : Int) + 4).find? (· ∉ used) with
  | none => exact absurd hnot (by simpa using List.find?_eq_none.mp hfind _ hmem)
  | some x =>
    have hx : readyKernel.openDev n used = x := by simp only [readyKernel, hfind, Option.getD_some]
    obtain ⟨j, -, rfl⟩ := List.mem_map.mp (List.mem_of_find?_eq_some hfind)
    rw [hx]
    exact ⟨by omega, by simpa using List.find?_some hfind⟩

set_option synthInstance.maxSize 1024 in
theorem singleOwner_smallBoard : ∃ L s,
    OwnerRun smallStart.1 readyKernel 20 (fun L s c => c.Separate smallStart.1 L s) smallStart.2 L s ∧
      SingleOwner smallStart.1 L s := by
  have hseen : ((Call.contextInit 1 0 1).exec smallStart.1 readyKernel 20 smallStart.2).toOption.map
      (fun p => ((Call.inputOpen 0).exec smallStart.1 readyKernel 20 p.2).toOption.map fun q =>
        ((q.2.openCnt 0, q.2.fd (smallStart.1.meOf 0)),
          ((Call.openCam 0).exec smallStart.1 readyKernel 20 q.2).toOption.map fun r =>
            ((Call.closeCam 0).exec smallStart.1 readyKernel 20 r.2).toOption.map fun _ => ())) =
      some (some ((0, -1), some (some ()))) := by
    decide +kernel
  obtain ⟨⟨ret₁, s₁⟩, hinit, h₁⟩ := exists_of_map_eq_some hseen
  obtain ⟨⟨ret₂, s₂⟩, hinput, h₂⟩ := exists_of_map_eq_some h₁
  obtain ⟨hfree, h₃⟩ := Prod.mk.inj h₂
  obtain ⟨⟨ret₃, s₃⟩, hopen, h₄⟩ := exists_of_map_eq_some h₃
  obtain ⟨⟨ret₄, s₄⟩, hclose, -⟩ := exists_of_map_eq_some h₄
  have hsource : smallStart.1.srcPool[(0 : Int).toNat]? = some 0 := by decide +kernel
  have hfd : s₂.fd (smallStart.1.meOf 0) < 0 := by
    rw [(Prod.mk.inj hfree).2]
    decide
  have hrun₁ := OwnerRun.step (P := fun L s c => c.Separate smallStart.1 L s) .start
    (c := .contextInit 1 0 1) (fun _ h => by cases h) trivial trivial hinit
  have hrun₂ := hrun₁.step (c := .inputOpen 0) (fun _ h => by cases h) trivial trivial hinput
  have hrun₃ := hrun₂.step (c := .openCam 0) (fun _ h => by cases h) trivial
    (fun n hn => by
      rw [hsource] at hn
      cases hn
      exact Or.inr hfd) hopen
  have hrun₄ := hrun₃.step (c := .closeCam 0) (fun _ h => by cases h)
    (fun n hn => by
      rw [hsource] at hn
      cases hn
      simp only [Ledger.after, hsource, Option.elim_some, Ledger.get, Function.update_self]
      exact List.cons_ne_nil _ _) trivial hclose
  exact ⟨_, s₄, hrun₄, singleOwner_of_ownerRun smallInit_eq opens_readyKernel hrun₄⟩

/-- The input device is open for streaming when the same device is switched on as a camera:
`CamNodeOpen` opens it once more and loses the first descriptor. -/
theorem not_singleOwner_smallBoard : ∃ L s,
    OwnerRun smallStart.1 readyKernel 20 (fun _ _ _ => True) smallStart.2 L s ∧
      ¬SingleOwner smallStart.1 L s := by
  have hseen : (smallRun [.contextInit 1 0 1, .inputOpen 0, .openCam 1]).toOption.map
      (fun s => s.files.countP (·.2 = smallStart.1.meOf 1)) = some 2 := by
    decide +kernel
  obtain ⟨s, hrun, hcount⟩ := exists_of_map_eq_some hseen
  have hstart : OwnerRun smallStart.1 readyKernel 20 (fun _ _ _ => True) smallStart.2 .empty
      smallStart.2 := .start
  obtain ⟨L, hown⟩ := exists_ownerRun (by simp) (by simp [Call.Balanced]) hstart hrun
  refine ⟨L, s, hown, fun h => ?_⟩
  have := h.single (smallStart.1.meOf 1)
  omega

end G361FPlatform.MediaLib
