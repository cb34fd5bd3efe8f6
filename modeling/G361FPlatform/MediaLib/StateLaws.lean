import G361FPlatform.MediaLib.Context

namespace G361FPlatform.MediaLib

theorem getLsbD_bit (f i : Nat) :
    (1#32 <<< f).getLsbD i = (decide (i < 32) && decide (i = f)) := by
  simp only [BitVec.getLsbD_shiftLeft, BitVec.getLsbD_one]
  by_cases h : i = f
  · subst h; simp
  · by_cases hlt : i < f
    · simp [h, hlt]
    · have hsub : i - f ≠ 0 := by omega
      simp [h, hlt, hsub]

@[simp] theorem getLsbD_setFlag (x : BitVec 32) (f i : Nat) :
    (setFlag x f).getLsbD i = (x.getLsbD i || (decide (i < 32) && decide (i = f))) := by
  rw [setFlag, BitVec.getLsbD_or, getLsbD_bit]

@[simp] theorem getLsbD_clrFlag (x : BitVec 32) (f i : Nat) :
    (clrFlag x f).getLsbD i = (x.getLsbD i && !decide (i = f)) := by
  rw [clrFlag, BitVec.getLsbD_and, BitVec.getLsbD_not, getLsbD_bit]
  by_cases hi : i < 32
  · simp [hi]
  · simp [BitVec.getLsbD_of_ge x i (by omega)]

theorem tstFlag_eq (x : BitVec 32) (f : Nat) : tstFlag x f = x.getLsbD f := by
  unfold tstFlag
  rw [Bool.eq_iff_iff, decide_eq_true_iff]
  constructor
  · intro h
    by_contra hx
    apply h
    apply BitVec.eq_of_getLsbD_eq
    intro i hi
    rw [BitVec.getLsbD_and, getLsbD_bit]
    by_cases hif : i = f
    · subst hif; simp [hx]
    · simp [hif]
  · intro h heq
    have hbit := congrArg (BitVec.getLsbD · f) heq
    simp only [BitVec.getLsbD_and, h, getLsbD_bit, BitVec.lt_of_getLsbD h] at hbit
    simp at hbit

theorem clrFlag_setFlag {x : BitVec 32} {f : Nat} (h : tstFlag x f = false) :
    clrFlag (setFlag x f) f = x := by
  rw [tstFlag_eq] at h
  apply BitVec.eq_of_getLsbD_eq
  intro i hi
  by_cases hif : i = f
  · subst hif; simp [h]
  · simp [hif]

namespace CamState

theorem clrNodeFlag_setNodeFlag {s : CamState} {node : NodeId} {f : Nat}
    (h : tstFlag (s.nodeFlags node) f = false) :
    (s.setNodeFlag node f).clrNodeFlag node f = s := by
  have hflags : Function.update (s.setNodeFlag node f).nodeFlags node
      (clrFlag ((s.setNodeFlag node f).nodeFlags node) f) = s.nodeFlags := by
    funext n
    by_cases hn : n = node
    · subst hn
      simp [setNodeFlag, clrFlag_setFlag h]
    · simp [setNodeFlag, hn]
  exact congrArg (fun flags => { s with nodeFlags := flags }) hflags

end CamState

end G361FPlatform.MediaLib
