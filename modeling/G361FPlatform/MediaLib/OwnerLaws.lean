import G361FPlatform.MediaLib.InitLaws

namespace G361FPlatform.MediaLib

open Library Outcome CamState

/-- `open` always succeeds, with a descriptor that is not in use. -/
def Kernel.Opens (k : Kernel) : Prop :=
  ∀ n used, 0 ≤ k.openDev n used ∧ k.openDev n used ∉ used

theorem CamState.openCnt_addOpenCnt_apply (s : CamState) (n : NodeId) {d : Int} (m : NodeId) :
    (s.addOpenCnt n d).openCnt m = if m = n then s.openCnt n + d else s.openCnt m :=
  Function.update_apply ..

/-- Every descriptor that is open is the `me->fd` of its device, and the other way round. -/
structure Files (s : CamState) : Prop where
  fd_eq : ∀ f ∈ s.files, s.fd f.2 = f.1
  nonneg : ∀ f ∈ s.files, 0 ≤ f.1
  mem : ∀ me, 0 ≤ s.fd me → (s.fd me, me) ∈ s.files
  neg : ∀ me, s.fd me < 0 → s.fd me = -1
  nodup : (s.files.map Prod.fst).Nodup

namespace Files

variable {k : Kernel} {s s' : CamState} {me : EntityId}

theorem congr (h : Files s) (hfd : s'.fd = s.fd) (hfiles : s'.files = s.files) : Files s' :=
  ⟨by rw [hfd, hfiles]; exact h.fd_eq, by rw [hfiles]; exact h.nonneg,
    by rw [hfd, hfiles]; exact h.mem, by rw [hfd]; exact h.neg, by rw [hfiles]; exact h.nodup⟩

theorem of_same (h : Files s) (hs : s.SameDevices s') : Files s' := h.congr hs.fd hs.files

theorem not_mem (h : Files s) (hfd : s.fd me < 0) : ∀ f ∈ s.files, f.2 ≠ me := by
  rintro f hf rfl
  have hnonneg := h.nonneg f hf
  rw [h.fd_eq f hf] at hfd
  omega

theorem openMe (hk : k.Opens) (h : Files s) (hfd : s.fd me < 0) :
    ∃ fd s', MediaLib.openMe k me s = (fd, s') ∧ 0 ≤ fd ∧ fd ∉ s.files.map Prod.fst ∧
      s'.fd = Function.update s.fd me fd ∧ s'.openCnt = s.openCnt ∧
      s'.files = (fd, me) :: s.files ∧ s'.linkRefCnt = s.linkRefCnt ∧ s'.ctx = s.ctx ∧
      Files s' := by
  obtain ⟨hpos, hfresh⟩ := hk s.opens (s.files.map (·.1))
  have hne : ∀ f ∈ s.files, f.2 ≠ me := h.not_mem hfd
  have hopen : MediaLib.openMe k me s = (k.openDev s.opens (s.files.map (·.1)),
      { s.setFd me (k.openDev s.opens (s.files.map (·.1))) with
        files := (k.openDev s.opens (s.files.map (·.1)), me) :: s.files
        opens := s.opens + 1 }) :=
    if_neg (Int.not_lt.mpr hpos)
  refine ⟨_, _, hopen, hpos, hfresh, rfl, rfl, rfl, rfl, rfl, ?_, ?_, ?_, ?_, ?_⟩
  · intro f hf
    rcases List.mem_cons.mp hf with rfl | hf
    · simp [setFd]
    · simp [setFd, hne f hf, h.fd_eq f hf]
  · intro f hf
    rcases List.mem_cons.mp hf with rfl | hf
    · exact hpos
    · exact h.nonneg f hf
  · intro me' hme'
    by_cases hmm : me' = me
    · subst hmm
      simp [setFd]
    · simp only [setFd, Function.update_of_ne hmm] at hme' ⊢
      exact List.mem_cons_of_mem _ (h.mem me' hme')
  · intro me' hme'
    by_cases hmm : me' = me
    · subst hmm
      simp only [setFd, Function.update_self] at hme'
      omega
    · simp only [setFd, Function.update_of_ne hmm] at hme' ⊢
      exact h.neg me' hme'
  · exact List.nodup_cons.mpr ⟨hfresh, h.nodup⟩

theorem mem_closeMe (h : Files s) (hfd : 0 ≤ s.fd me) {f : Int × EntityId} :
    f ∈ (closeMe me s).files ↔ f ∈ s.files ∧ f.2 ≠ me := by
  simp only [MediaLib.closeMe, setFd, List.mem_filter, decide_eq_true_eq, and_congr_right_iff]
  intro hf
  refine not_congr ⟨fun heq => ?_, fun heq => ?_⟩
  · have := List.inj_on_of_nodup_map h.nodup hf (h.mem me hfd) heq
    rw [this]
  · rw [← h.fd_eq f hf, heq]

theorem closeMe (h : Files s) (hfd : 0 ≤ s.fd me) : Files (MediaLib.closeMe me s) := by
  have hupdate : ∀ me', me' ≠ me → (MediaLib.closeMe me s).fd me' = s.fd me' :=
    fun me' hme' => Function.update_of_ne hme' _ _
  refine ⟨?_, ?_, ?_, ?_, ?_⟩
  · intro f hf
    obtain ⟨hf, hne⟩ := (h.mem_closeMe hfd).mp hf
    rw [hupdate _ hne, h.fd_eq f hf]
  · exact fun f hf => h.nonneg f ((h.mem_closeMe hfd).mp hf).1
  · intro me' hme'
    by_cases hmm : me' = me
    · subst hmm
      simp [MediaLib.closeMe, setFd] at hme'
    · rw [hupdate _ hmm] at hme' ⊢
      exact (h.mem_closeMe hfd).mpr ⟨h.mem me' hme', hmm⟩
  · intro me' hme'
    by_cases hmm : me' = me
    · subst hmm
      simp [MediaLib.closeMe, setFd]
    · rw [hupdate _ hmm] at hme' ⊢
      exact h.neg me' hme'
  · exact h.nodup.sublist (List.filter_sublist.map _)

theorem closeMe_openMe (hk : k.Opens) (h : Files s) (hfd : s.fd me < 0) :
    s.SameDevices (MediaLib.closeMe me (MediaLib.openMe k me s).2) := by
  obtain ⟨fd, s', hopen, hpos, hfresh, hfd', hcnt, hfiles, -⟩ := h.openMe hk hfd
  rw [hopen]
  refine ⟨?_, hcnt, ?_⟩
  · funext me'
    by_cases hmm : me' = me
    · subst hmm
      simp [MediaLib.closeMe, setFd, h.neg me' hfd]
    · simp [MediaLib.closeMe, setFd, hmm, hfd']
  · simp only [MediaLib.closeMe, setFd, hfd', Function.update_self, hfiles]
    rw [List.filter_cons_of_neg (by simp), List.filter_eq_self]
    intro f hf
    have hne : f.1 ≠ fd := fun heq => hfresh (heq ▸ List.mem_map_of_mem hf)
    simpa using hne

end Files

/-- Who holds which descriptor, as seen from outside: the `Get`s of a node that are not `Put`
back yet, each with the descriptor it was given, and the context that has opened a device
through one of its ports, with the descriptor it was given. -/
structure Ledger where
  got : NodeId → List Int
  port : EntityId → Option (Nat × Int)

namespace Ledger

def empty : Ledger := ⟨fun _ => [], fun _ => none⟩

def get (n : NodeId) (fd : Int) (L : Ledger) : Ledger :=
  { L with got := Function.update L.got n (fd :: L.got n) }

def put (n : NodeId) (L : Ledger) : Ledger :=
  { L with got := Function.update L.got n (L.got n).tail }

def take (me : EntityId) (id : Nat) (fd : Int) (L : Ledger) : Ledger :=
  { L with port := Function.update L.port me (some (id, fd)) }

def give (me : EntityId) (L : Ledger) : Ledger :=
  { L with port := Function.update L.port me none }

section

variable {L : Ledger} {me me' : EntityId} (id : Nat) (fd : Int)

@[simp] theorem port_take_self : (L.take me id fd).port me = some (id, fd) := Function.update_self ..

theorem port_take_of_ne (hne : me' ≠ me) : (L.take me id fd).port me' = L.port me' :=
  Function.update_of_ne hne ..

@[simp] theorem port_give_self : (L.give me).port me = none := Function.update_self ..

theorem port_give_of_ne (hne : me' ≠ me) : (L.give me).port me' = L.port me' :=
  Function.update_of_ne hne ..

theorem give_take (hnone : L.port me = none) : (L.take me id fd).give me = L := by
  have hport : Function.update (L.take me id fd).port me none = L.port := by
    rw [take, Function.update_idem, ← hnone, Function.update_eq_self]
  rw [give, hport]
  rfl

end

end Ledger

structure Owned (cam : PlatCam) (L : Ledger) (s : CamState) : Prop where
  files : Files s
  held : ∀ me, 0 ≤ s.fd me ↔ (∃ n, cam.meOf n = me ∧ 0 < s.openCnt n) ∨ (L.port me).isSome
  alone : ∀ n n', 0 < s.openCnt n → 0 < s.openCnt n' → cam.meOf n = cam.meOf n' → n = n'
  apart : ∀ n, 0 < s.openCnt n → L.port (cam.meOf n) = none
  got_le : ∀ n, ((L.got n).length : Int) ≤ s.openCnt n
  got_fd : ∀ n, ∀ fd ∈ L.got n, s.fd (cam.meOf n) = fd
  port_fd : ∀ me id fd, L.port me = some (id, fd) → s.fd me = fd

namespace Owned

variable {cam : PlatCam} {k : Kernel} {L : Ledger} {s s' : CamState} {n : NodeId}

theorem of_same (h : Owned cam L s) (hs : s.SameDevices s') : Owned cam L s' := by
  have hfiles := h.files.of_same hs
  obtain ⟨hfd, hcnt, -⟩ := hs
  exact ⟨hfiles, by rw [hfd, hcnt]; exact h.held, by rw [hcnt]; exact h.alone,
    by rw [hcnt]; exact h.apart, by rw [hcnt]; exact h.got_le, by rw [hfd]; exact h.got_fd,
    by rw [hfd]; exact h.port_fd⟩

theorem openCnt_nonneg (h : Owned cam L s) (n : NodeId) : 0 ≤ s.openCnt n := by
  have := h.got_le n
  omega

theorem pos_of_got (h : Owned cam L s) {fd : Int} (hfd : fd ∈ L.got n) : 0 < s.openCnt n := by
  have := h.got_le n
  have := List.length_pos_of_mem hfd
  omega

theorem openCnt_eq_zero (h : Owned cam L s) (hfd : s.fd (cam.meOf n) < 0) {n' : NodeId}
    (hme : cam.meOf n' = cam.meOf n) : s.openCnt n' = 0 := by
  have hnonneg := h.openCnt_nonneg n'
  by_contra hne
  have := (h.held (cam.meOf n)).mpr (.inl ⟨n', hme, by omega⟩)
  omega

theorem port_eq_none (h : Owned cam L s) {me : EntityId} (hfd : s.fd me < 0) : L.port me = none := by
  by_contra hne
  have := (h.held me).mpr (.inr (Option.isSome_iff_ne_none.mpr hne))
  omega

theorem recount (h : Owned cam L s) (hfd : s'.fd = s.fd) (hfiles : s'.files = s.files)
    (hpos : ∀ m, 0 < s'.openCnt m ↔ 0 < s.openCnt m)
    (hle : ∀ m, ((L.got m).length : Int) ≤ s'.openCnt m) : Owned cam L s' where
  files := h.files.congr hfd hfiles
  held := by
    simp only [hfd, hpos]
    exact h.held
  alone := by
    simp only [hpos]
    exact h.alone
  apart := by
    simp only [hpos]
    exact h.apart
  got_le := hle
  got_fd := by
    rw [hfd]
    exact h.got_fd
  port_fd := by
    rw [hfd]
    exact h.port_fd

theorem get (h : Owned cam L s) (hlt : ((L.got n).length : Int) < s.openCnt n) :
    Owned cam (L.get n (s.fd (cam.meOf n))) s where
  files := h.files
  held := h.held
  alone := h.alone
  apart := h.apart
  got_le := by
    intro n'
    have := h.got_le n'
    by_cases hn : n' = n
    · subst hn
      simp only [Ledger.get, Function.update_self, List.length_cons]
      omega
    · simpa [Ledger.get, hn] using this
  got_fd := by
    intro n' fd hfd
    by_cases hn : n' = n
    · subst hn
      simp only [Ledger.get, Function.update_self, List.mem_cons] at hfd
      rcases hfd with rfl | hfd
      · rfl
      · exact h.got_fd n' fd hfd
    · simp only [Ledger.get, Function.update_of_ne hn] at hfd
      exact h.got_fd n' fd hfd
  port_fd := h.port_fd

theorem put (h : Owned cam L s) (n : NodeId) : Owned cam (L.put n) s where
  files := h.files
  held := h.held
  alone := h.alone
  apart := h.apart
  got_le := by
    intro m
    have := h.got_le m
    by_cases hm : m = n
    · subst hm
      simp only [Ledger.put, Function.update_self, List.length_tail]
      omega
    · simpa [Ledger.put, hm] using this
  got_fd := by
    intro m fd hfd
    by_cases hm : m = n
    · subst hm
      simp only [Ledger.put, Function.update_self] at hfd
      exact h.got_fd m fd (List.mem_of_mem_tail hfd)
    · simp only [Ledger.put, Function.update_of_ne hm] at hfd
      exact h.got_fd m fd hfd
  port_fd := h.port_fd

theorem take (hk : k.Opens) (h : Owned cam L s) {me : EntityId} (hfd : s.fd me < 0) (id : Nat) :
    ∃ fd s', openMe k me s = (fd, s') ∧ 0 ≤ fd ∧ s'.openCnt = s.openCnt ∧
      Owned cam (L.take me id fd) s' := by
  obtain ⟨fd, s', hopen, hpos, -, hfd', hcnt, -, -, -, hf⟩ := h.files.openMe hk hfd
  have hother : ∀ n, 0 < s.openCnt n → cam.meOf n ≠ me := by
    rintro n hn rfl
    have := h.openCnt_eq_zero hfd rfl
    omega
  refine ⟨fd, s', hopen, hpos, hcnt, hf, ?_, by rw [hcnt]; exact h.alone, ?_,
    by rw [hcnt]; exact h.got_le, ?_, ?_⟩
  · intro me'
    rw [hfd', hcnt]
    by_cases hme : me' = me
    · subst hme
      simp [hpos]
    · simpa [Ledger.port_take_of_ne _ _ hme, hme] using h.held me'
  · intro n hn
    rw [hcnt] at hn
    rw [Ledger.port_take_of_ne _ _ (hother n hn)]
    exact h.apart n hn
  · intro n fd' hfd''
    rw [hfd', Function.update_of_ne (hother n (h.pos_of_got hfd''))]
    exact h.got_fd n fd' hfd''
  · intro me' id' fd' hport
    rw [hfd']
    by_cases hme : me' = me
    · subst hme
      simp only [Ledger.port_take_self, Option.some.injEq, Prod.mk.injEq] at hport
      rw [Function.update_self, hport.2]
    · rw [Ledger.port_take_of_ne _ _ hme] at hport
      rw [Function.update_of_ne hme]
      exact h.port_fd me' id' fd' hport

theorem give (h : Owned cam L s) {me : EntityId} (hport : (L.port me).isSome) :
    Owned cam (L.give me) (closeMe me s) := by
  have hopen : 0 ≤ s.fd me := (h.held me).mpr (.inr hport)
  have hother : ∀ n, 0 < s.openCnt n → cam.meOf n ≠ me := by
    rintro n hn rfl
    rw [h.apart n hn] at hport
    cases hport
  have hfd : ∀ me', (closeMe me s).fd me' = if me' = me then -1 else s.fd me' := by
    intro me'
    by_cases hme : me' = me
    · subst hme
      simp [closeMe, setFd]
    · simp [closeMe, setFd, hme]
  refine ⟨h.files.closeMe hopen, ?_, h.alone, ?_, h.got_le, ?_, ?_⟩
  · intro me'
    rw [hfd]
    by_cases hme : me' = me
    · subst hme
      simp only [if_true, Ledger.port_give_self, Option.isSome_none, Bool.false_eq_true, or_false]
      refine iff_of_false (by omega) ?_
      rintro ⟨n, hn, hpos⟩
      exact hother n hpos hn
    · have hcnt : (closeMe me s).openCnt = s.openCnt := rfl
      simpa [Ledger.port_give_of_ne hme, hme, hcnt] using h.held me'
  · intro n hn
    rw [Ledger.port_give_of_ne (hother n hn)]
    exact h.apart n hn
  · intro n fd' hfd'
    rw [hfd, if_neg (hother n (h.pos_of_got hfd'))]
    exact h.got_fd n fd' hfd'
  · intro me' id fd' hport'
    by_cases hme : me' = me
    · subst hme
      simp at hport'
    · rw [Ledger.port_give_of_ne hme] at hport'
      rw [hfd, if_neg hme]
      exact h.port_fd me' id fd' hport'

theorem toPort (h : Owned cam L s) (hone : s.openCnt n = 1) (hnil : L.got n = []) (id : Nat) :
    Owned cam (L.take (cam.meOf n) id (s.fd (cam.meOf n))) (s.addOpenCnt n (-1)) := by
  have hcnt := s.openCnt_addOpenCnt_apply n (d := -1)
  have hpos : ∀ m, 0 < (s.addOpenCnt n (-1)).openCnt m → m ≠ n ∧ 0 < s.openCnt m := by
    intro m hm
    rw [hcnt] at hm
    split at hm
    · omega
    next hne => exact ⟨hne, hm⟩
  refine ⟨h.files.congr rfl rfl, fun me => ?_, fun m m' hm hm' => ?_, fun m hm => ?_, fun m => ?_,
    h.got_fd, fun me id' fd hport => ?_⟩
  · by_cases hme : me = cam.meOf n
    · subst hme
      exact iff_of_true ((h.held _).mpr (.inl ⟨n, rfl, by omega⟩)) (.inr (by simp))
    · rw [Ledger.port_take_of_ne _ _ hme]
      refine (h.held me).trans (or_congr_left (exists_congr fun m => and_congr_right fun hm => ?_))
      have hne : m ≠ n := fun heq => hme (heq ▸ hm.symm)
      rw [hcnt, if_neg hne]
  · exact h.alone m m' (hpos m hm).2 (hpos m' hm').2
  · obtain ⟨hne, hm⟩ := hpos m hm
    have hme : cam.meOf m ≠ cam.meOf n := fun heq => hne (h.alone m n hm (by omega) heq)
    rw [Ledger.port_take_of_ne _ _ hme]
    exact h.apart m hm
  · rw [hcnt]
    split
    next heq =>
      have hgot : (L.take (cam.meOf n) id (s.fd (cam.meOf n))).got m = [] := heq ▸ hnil
      rw [hgot, hone]
      rfl
    · exact h.got_le m
  · by_cases hme : me = cam.meOf n
    · subst hme
      simp only [Ledger.port_take_self, Option.some.injEq, Prod.mk.injEq] at hport
      exact hport.2
    · rw [Ledger.port_take_of_ne _ _ hme] at hport
      exact h.port_fd me id' fd hport

theorem ofPort (h : Owned cam L s) (hport : (L.port (cam.meOf n)).isSome) :
    Owned cam (L.give (cam.meOf n)) (s.addOpenCnt n 1) := by
  have hother : ∀ m, 0 < s.openCnt m → cam.meOf m ≠ cam.meOf n := by
    intro m hm heq
    rw [← heq, h.apart m hm] at hport
    cases hport
  have hzero : s.openCnt n = 0 :=
    le_antisymm (Int.not_lt.mp fun hn => hother n hn rfl) (h.openCnt_nonneg n)
  have hcnt := s.openCnt_addOpenCnt_apply n (d := 1)
  have hpos : ∀ m, 0 < (s.addOpenCnt n 1).openCnt m → m = n ∨ 0 < s.openCnt m := by
    intro m hm
    rw [hcnt] at hm
    split at hm
    next heq => exact .inl heq
    · exact .inr hm
  refine ⟨h.files.congr rfl rfl, fun me => ?_, fun m m' hm hm' hme => ?_, fun m hm => ?_,
    fun m => ?_, h.got_fd, fun me id fd hport' => ?_⟩
  · by_cases hme : me = cam.meOf n
    · subst hme
      exact iff_of_true ((h.held _).mpr (.inr hport))
        (.inl ⟨n, rfl, by rw [hcnt, if_pos rfl, hzero]; decide⟩)
    · rw [Ledger.port_give_of_ne hme]
      refine (h.held me).trans (or_congr_left (exists_congr fun m => and_congr_right fun hm => ?_))
      have hne : m ≠ n := fun heq => hme (heq ▸ hm.symm)
      rw [hcnt, if_neg hne]
  · rcases hpos m hm with heq | hcounted
    · rcases hpos m' hm' with heq' | hcounted'
      · rw [heq, heq']
      · exact absurd (heq ▸ hme.symm) (hother m' hcounted')
    · rcases hpos m' hm' with heq' | hcounted'
      · exact absurd (heq' ▸ hme) (hother m hcounted)
      · exact h.alone m m' hcounted hcounted' hme
  · rcases hpos m hm with heq | hcounted
    · rw [heq, Ledger.port_give_self]
    · rw [Ledger.port_give_of_ne (hother m hcounted)]
      exact h.apart m hcounted
  · have := h.got_le m
    rw [hcnt]
    split
    next heq =>
      subst heq
      exact le_trans this (by omega)
    · exact this
  · by_cases hme : me = cam.meOf n
    · subst hme
      simp at hport'
    · rw [Ledger.port_give_of_ne hme] at hport'
      exact h.port_fd me id fd hport'

theorem camNodeOpen (hk : k.Opens) (h : Owned cam L s)
    (hfree : s.openCnt n ≠ 0 ∨ s.fd (cam.meOf n) < 0) :
    ∃ fd s', MediaLib.camNodeOpen cam k n s = (fd, s') ∧ 0 ≤ fd ∧ s'.fd (cam.meOf n) = fd ∧
      s'.openCnt n = s.openCnt n + 1 ∧ Owned cam L s' := by
  have hnonneg := h.openCnt_nonneg n
  by_cases hzero : s.openCnt n = 0
  case neg =>
    have hpos : 0 < s.openCnt n := by omega
    have hcnt := s.openCnt_addOpenCnt_apply n (d := 1)
    refine ⟨s.fd (cam.meOf n), s.addOpenCnt n 1, by simp [MediaLib.camNodeOpen, hzero], ?_, rfl,
      by rw [hcnt, if_pos rfl], h.recount rfl rfl (fun m => ?_) fun m => ?_⟩
    · exact (h.held _).mpr (.inl ⟨n, rfl, hpos⟩)
    · rw [hcnt]
      split
      next heq =>
        subst heq
        omega
      · rfl
    · have := h.got_le m
      rw [hcnt]
      split
      next heq =>
        subst heq
        omega
      · exact this
  case pos =>
    have hfd : s.fd (cam.meOf n) < 0 := hfree.resolve_left (fun hne => hne hzero)
    -- the device is opened as a port opens it, and then counted
    obtain ⟨fd, s₁, hopen, hpos, hcnt, h₁⟩ := h.take hk hfd 0
    refine ⟨fd, s₁.addOpenCnt n 1, ?_, hpos, h₁.port_fd _ 0 fd (Ledger.port_take_self 0 fd), ?_, ?_⟩
    · simp [MediaLib.camNodeOpen, hzero, hopen, Int.not_lt.mpr hpos]
    · rw [CamState.openCnt_addOpenCnt_apply, if_pos rfl, hcnt]
    · have hcounted := h₁.ofPort (n := n) (by simp)
      rwa [Ledger.give_take _ _ (h.port_eq_none hfd)] at hcounted

theorem camNodeClose (h : Owned cam L s) (hlt : ((L.got n).length : Int) < s.openCnt n) :
    Owned cam L (MediaLib.camNodeClose cam n s).2 := by
  have hcnt := s.openCnt_addOpenCnt_apply n (d := -1)
  unfold MediaLib.camNodeClose
  dsimp only
  by_cases hlast : (s.addOpenCnt n (-1)).openCnt n = 0
  case neg =>
    rw [if_neg hlast]
    rw [hcnt, if_pos rfl] at hlast
    refine h.recount rfl rfl (fun m => ?_) fun m => ?_
    · rw [hcnt]
      split
      next heq =>
        subst heq
        omega
      · rfl
    · rw [hcnt]
      split
      next heq =>
        subst heq
        omega
      · exact h.got_le m
  case pos =>
    rw [if_pos hlast]
    rw [hcnt, if_pos rfl] at hlast
    have hone : s.openCnt n = 1 := by omega
    have hnil : L.got n = [] := List.eq_nil_of_length_eq_zero (by omega)
    -- the count is given up as a port would hold the device, which then closes it
    have hport : ((L.take (cam.meOf n) 0 (s.fd (cam.meOf n))).port (cam.meOf n)).isSome := by simp
    have hclosed := (h.toPort hone hnil 0).give hport
    rwa [Ledger.give_take _ _ (h.apart n (by omega))] at hclosed

end Owned

end G361FPlatform.MediaLib
