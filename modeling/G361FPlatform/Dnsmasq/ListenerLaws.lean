import G361FPlatform.Library.Parts
import G361FPlatform.Dnsmasq.Listener

namespace G361FPlatform.Dnsmasq

open Library CString

def calls (bytes : List UInt8) : List Invocation := (checkAndroidListeners (some bytes)).1

def dispatch (c : CString) : List Invocation := (runCommand c 0).1

def IsCommand (c : CString) : Prop :=
  (strsep BAR c).2.isSome ∧ (strsep BAR c).1 ∈
    [("update_dns" : CString), ("update_v6dns" : CString), ("update_ra" : CString), ("join_multicast" : CString)]

theorem runCommand_fst (c : CString) (retcode : Int) : (runCommand c retcode).1 = dispatch c := by
  unfold dispatch runCommand
  dsimp only
  cases (strsep BAR c).2 <;> (repeat' split) <;> rfl

inductive Dispatched (c : CString) : Prop
  | nothing (calls : dispatch c = []) (command : ¬IsCommand c)
  | servers (name params : CString) (split : c = name ++ BAR :: params)
    (known : name = ("update_dns" : CString) ∨ name = ("update_v6dns" : CString))
    (calls : dispatch c = [.setServers params, .checkServers]) (command : IsCommand c)
  | mode (params : CString) (split : c = ("update_ra" : CString) ++ BAR :: params)
    (calls : dispatch c = [.setModeOfRa params]) (command : IsCommand c)
  | multicast (params : CString) (split : c = ("join_multicast" : CString) ++ BAR :: params)
    (calls : dispatch c = [.ifaceJoinMulticast params]) (command : IsCommand c)

theorem dispatched (c : CString) : Dispatched c := by
  rcases hsep : strsep BAR c with ⟨name, params⟩
  cases params with
  | none =>
    refine .nothing ?_ fun h => ?_
    · unfold dispatch runCommand
      rw [hsep]
      dsimp only
      repeat' split
      all_goals rfl
    · rw [IsCommand, hsep] at h
      exact Bool.noConfusion h.1
  | some params =>
    have heq := eq_of_strsep hsep
    have hcommand : name ∈ [("update_dns" : CString), ("update_v6dns" : CString), ("update_ra" : CString),
        ("join_multicast" : CString)] → IsCommand c := by
      intro hname
      rw [IsCommand, hsep]
      exact ⟨rfl, hname⟩
    by_cases hdns : name = ("update_dns" : CString)
    · refine .servers name params heq (.inl hdns) ?_ (hcommand (by simp [hdns]))
      unfold dispatch runCommand
      rw [hsep]
      dsimp only
      rw [if_pos hdns]
    by_cases hv6dns : name = ("update_v6dns" : CString)
    · refine .servers name params heq (.inr hv6dns) ?_ (hcommand (by simp [hv6dns]))
      unfold dispatch runCommand
      rw [hsep]
      dsimp only
      rw [if_neg hdns, if_pos hv6dns]
    by_cases hra : name = ("update_ra" : CString)
    · refine .mode params (hra ▸ heq) ?_ (hcommand (by simp [hra]))
      unfold dispatch runCommand
      rw [hsep]
      dsimp only
      rw [if_neg hdns, if_neg hv6dns, if_pos hra]
    by_cases hjoin : name = ("join_multicast" : CString)
    · refine .multicast params (hjoin ▸ heq) ?_ (hcommand (by simp [hjoin]))
      unfold dispatch runCommand
      rw [hsep]
      dsimp only
      rw [if_neg hdns, if_neg hv6dns, if_neg hra, if_pos hjoin]
    · refine .nothing ?_ fun h => ?_
      · unfold dispatch runCommand
        rw [hsep]
        dsimp only
        rw [if_neg hdns, if_neg hv6dns, if_neg hra, if_neg hjoin]
      · have hname := h.2
        rw [hsep] at hname
        simp [hdns, hv6dns, hra, hjoin] at hname

theorem dispatch_eq_nil_iff (c : CString) : dispatch c = [] ↔ ¬IsCommand c := by
  cases dispatched c with
  | nothing hcalls hcommand => exact iff_of_true hcalls hcommand
  | servers _ _ _ _ hcalls hcommand => exact iff_of_false (by rw [hcalls]; exact List.cons_ne_nil _ _) (not_not.mpr hcommand)
  | mode _ _ hcalls hcommand => exact iff_of_false (by rw [hcalls]; exact List.cons_ne_nil _ _) (not_not.mpr hcommand)
  | multicast _ _ hcalls hcommand => exact iff_of_false (by rw [hcalls]; exact List.cons_ne_nil _ _) (not_not.mpr hcommand)

theorem dispatch_nil : dispatch [] = [] := rfl

theorem dns_eq : CString.ofString "update_dns" = [117, 112, 100, 97, 116, 101, 95, 100, 110, 115] := rfl

theorem v6dns_eq : CString.ofString "update_v6dns" = [117, 112, 100, 97, 116, 101, 95, 118, 54, 100, 110, 115] := rfl

theorem whole_of_dispatch {c p x y : CString} (hc : c = x ++ p ++ y) (hp : dispatch p ≠ [])
    (h : (dispatch p).head? = (dispatch c).head?) : x = [] ∧ y = [] := by
  have hlen := congrArg List.length hc
  simp only [List.length_append] at hlen
  have hwhole : c.length ≤ p.length → x = [] ∧ y = [] := fun hle =>
    ⟨List.eq_nil_of_length_eq_zero (by omega), List.eq_nil_of_length_eq_zero (by omega)⟩
  cases dispatched p with
  | nothing hcalls => exact absurd hcalls hp
  | servers name params hsplit hknown hcalls =>
    rw [hcalls] at h
    cases dispatched c with
    | servers name' params' hsplit' hknown' hcalls' =>
      rw [hcalls'] at h
      cases h
      rcases hknown with rfl | rfl <;> rcases hknown' with rfl | rfl
      · exact hwhole (Nat.le_of_eq (by rw [hsplit, hsplit']))
      · -- `update_dns` is not found at any of the three places where it would fit
        have hshort : x.length ≤ 2 := by
          rw [hsplit, hsplit'] at hlen
          simp only [dns_eq, v6dns_eq, List.length_append, List.length_cons, List.length_nil] at hlen
          omega
        rw [hsplit, hsplit', dns_eq, v6dns_eq] at hc
        match x, hshort with
        | [], _ => simp at hc
        | [a], _ => simp at hc
        | [a, b], _ => simp at hc
      · rw [hsplit, hsplit'] at hlen
        simp only [dns_eq, v6dns_eq, List.length_append, List.length_cons, List.length_nil] at hlen
        omega
      · exact hwhole (Nat.le_of_eq (by rw [hsplit, hsplit']))
    | nothing hcalls' => rw [hcalls'] at h; cases h
    | mode _ _ hcalls' => rw [hcalls'] at h; cases h
    | multicast _ _ hcalls' => rw [hcalls'] at h; cases h
  | mode params hsplit hcalls =>
    rw [hcalls] at h
    cases dispatched c with
    | mode params' hsplit' hcalls' =>
      rw [hcalls'] at h
      cases h
      exact hwhole (Nat.le_of_eq (by rw [hsplit, hsplit']))
    | nothing hcalls' => rw [hcalls'] at h; cases h
    | servers _ _ _ _ hcalls' => rw [hcalls'] at h; cases h
    | multicast _ _ hcalls' => rw [hcalls'] at h; cases h
  | multicast params hsplit hcalls =>
    rw [hcalls] at h
    cases dispatched c with
    | multicast params' hsplit' hcalls' =>
      rw [hcalls'] at h
      cases h
      exact hwhole (Nat.le_of_eq (by rw [hsplit, hsplit']))
    | nothing hcalls' => rw [hcalls'] at h; cases h
    | servers _ _ _ _ hcalls' => rw [hcalls'] at h; cases h
    | mode _ _ hcalls' => rw [hcalls'] at h; cases h

end G361FPlatform.Dnsmasq
