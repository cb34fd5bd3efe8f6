import G361FPlatform.Dhcp.Client
import G361FPlatform.Dhcp.DecodeLaws

namespace G361FPlatform.Dhcp

open Library LittleEndian

namespace DhcpMsg

theorem toList_writeOptions (m : DhcpMsg) {x : Nat} {bs : List UInt8} (h : x + bs.length ≤ 1024) :
    (m.writeOptions x bs).options.toList =
      m.options.toList.take x ++ (bs ++ m.options.toList.drop (x + bs.length)) := by
  apply List.ext_getElem?
  intro i
  by_cases hi : i < 1024
  case neg =>
    rw [List.getElem?_eq_none (by simp; omega), List.getElem?_eq_none (by simp; omega)]
  have hleft : (m.writeOptions x bs).options.toList[i]? =
      some (if x ≤ i ∧ i < x + bs.length then bs.getD (i - x) 0 else m.options[i]) := by
    simp [writeOptions, hi]
  have hlen : (m.options.toList.take x).length = x := by simp; omega
  rw [hleft]
  by_cases hx : i < x
  · rw [if_neg (by omega), List.getElem?_append_left (by omega)]
    simp [hx, hi]
  · rw [List.getElem?_append_right (by omega), hlen]
    by_cases hbs : i < x + bs.length
    · rw [if_pos ⟨by omega, hbs⟩, List.getElem?_append_left (by omega), List.getD_eq_getElem?_getD]
      rw [List.getElem?_eq_getElem (by omega), Option.getD_some]
    · rw [if_neg (by omega), List.getElem?_append_right (by omega), List.getElem?_drop]
      have hidx : x + bs.length + (i - x - bs.length) = i := by omega
      simp [hidx, hi]

end DhcpMsg

theorem options_dumpDhcpMsg (m : DhcpMsg) (len : Nat) : (dumpDhcpMsg m len).options = m.options := by
  unfold dumpDhcpMsg
  split <;> rfl

def sentType (m : DhcpMsg) : UInt8 := m.options[6]

/-- The address asked for and the server it is asked of, where a DHCPREQUEST has them. -/
def Carries (m : DhcpMsg) (info : DhcpInfo) : Prop :=
  (m.options.toList.drop 13).take 12 =
    [OPT_REQUESTED_IP, 4] ++ bytes32 info.ipaddr ++ [OPT_SERVER_ID, 4] ++ bytes32 info.serveraddr

theorem sentType_discover (hwaddr : Vector UInt8 6) (xid : UInt32) (len : Nat) :
    sentType (dumpDhcpMsg (initDhcpDiscoverMsg hwaddr xid).1 len) = DHCPDISCOVER := by
  rw [sentType]
  simp only [options_dumpDhcpMsg]
  simp [initDhcpDiscoverMsg, initDhcpMsg, DhcpMsg.writeOptions]

theorem carries_request (hwaddr : Vector UInt8 6) (xid : UInt32) (info : DhcpInfo) (len : Nat) :
    Carries (dumpDhcpMsg (initDhcpRequestMsg hwaddr xid info.ipaddr info.serveraddr).1 len) info := by
  rw [Carries, options_dumpDhcpMsg]
  have hlen : (initDhcpMsg DHCPREQUEST hwaddr xid).1.options.toList.length = 1024 := by simp
  have hoptions := DhcpMsg.toList_writeOptions (initDhcpMsg DHCPREQUEST hwaddr xid).1
    (show 7 + (parameterList ++ [OPT_REQUESTED_IP, 4] ++ bytes32 info.ipaddr ++ [OPT_SERVER_ID, 4] ++
      bytes32 info.serveraddr ++ [OPT_END]).length ≤ 1024 by simp [parameterList])
  change (((initDhcpMsg DHCPREQUEST hwaddr xid).1.writeOptions 7 _).options.toList.drop 13).take 12 = _
  rw [hoptions, List.drop_append, List.length_take, hlen, List.drop_of_length_le (by simp)]
  rfl

namespace Client

def heard (c : Client) : Event → Option (DhcpMsg × Nat)
  | .packet buffer read =>
    match receivePacket buffer read c.reply with
    | .ok (r, reply) => if r < 0 then none else some (dumpDhcpMsg reply r.toNat, r.toNat)
    | .error _ => none
  | _ => none

def takes (c : Client) (reply : DhcpMsg) (r : Nat) (info : DhcpInfo) : Bool :=
  isValidReply c.asked reply r &&
    match c.state with
    | .selecting => info.type = DHCPOFFER.toUInt32
    | .requesting => info.type = DHCPACK.toUInt32 || info.type = DHCPNAK.toUInt32

def quit (ret : Option Int) (c : Client) : Client := ret.elim c c.return_

def hear (reply : DhcpMsg) (info : DhcpInfo) (c : Client) : Client :=
  { c with reply := reply, info := info }

end Client

inductive Event.Kind (e : Event) : Prop
  | timeout : e = .timeout → Kind e
  | fault : (∀ env c, ∃ err, Client.step env e c = .error err) → Kind e
  | quiet (ret : Option Int) : (∀ c : Client, c.heard e = none) →
      (∀ env c, Client.step env e c = .ok (c.quit ret)) → Kind e
  | message (data : List UInt8) : data.length ≤ DHCP_MSG_SIZE →
      (∀ c : Client, c.heard e = some (dumpDhcpMsg (c.reply.copyFrom data) data.length, data.length)) →
      (∀ env c, Client.step env e c =
        { c with reply := c.reply.copyFrom data }.received env data.length) → Kind e

theorem Event.kind (e : Event) : e.Kind := by
  cases e with
  | timeout => exact .timeout rfl
  | pollFailed errno =>
    refine .quiet (if errno = EAGAIN ∨ errno = EINTR then none else some (-1)) (fun _ => rfl) ?_
    intro env c
    rw [Client.step]
    split <;> rfl
  | packet buffer read =>
    cases receives buffer read with
    | fault h =>
      refine .fault fun env c => ?_
      obtain ⟨err, herr⟩ := h c.reply
      exact ⟨err, by rw [Client.step, herr]⟩
    | refused h =>
      have hheard : ∀ c : Client, c.heard (.packet buffer read) = none := fun c => by
        rw [Client.heard, h]
        rfl
      cases read with
      | got bytes hlen => exact .quiet none hheard fun env c => by rw [Client.step, h]; rfl
      | failed errno =>
        refine .quiet (if errno = ENETDOWN ∨ errno = ENXIO then some (-1) else none) hheard fun env c => ?_
        rw [Client.step, h]
        dsimp only
        rw [if_pos (by decide), Client.refused]
        split <;> rfl
    | got data hlen h =>
      have hret : ¬(data.length : Int) < 0 := by omega
      refine .message data hlen (fun c => ?_) fun env c => ?_
      · rw [Client.heard, h]
        dsimp only
        rw [if_neg hret, Int.toNat_natCast]
      · rw [Client.step, h]
        dsimp only
        rw [if_neg hret, Int.toNat_natCast]

namespace Client

variable {env : Env} {c c' : Client}

theorem received_eq_ok {m : DhcpMsg} {r : Nat}
    (h : { c with reply := m }.received env r = .ok c') :
    ∃ ret info, decodeDhcpMsg (dumpDhcpMsg m r) r = .ok (ret, info) ∧
      c' = if c.takes (dumpDhcpMsg m r) r info then (c.hear (dumpDhcpMsg m r) info).handleReply env
        else c.hear (dumpDhcpMsg m r) info := by
  unfold received at h
  dsimp only at h
  split at h
  · cases h
  next ret info hdecode =>
    refine ⟨ret, info, hdecode, ?_⟩
    have hasked : asked { c with reply := dumpDhcpMsg m r, info := info } = c.asked := rfl
    cases h
    rw [hasked, takes]
    by_cases hvalid : isValidReply c.asked (dumpDhcpMsg m r) r = true
    case neg =>
      rw [if_neg hvalid, if_neg (by simp [hvalid])]
      rfl
    rw [if_pos hvalid, hvalid, Bool.true_and]
    cases hstate : c.state with
    | selecting =>
      dsimp only
      split
      · simp only [hear, hstate]
      next htype =>
        have htype' : ¬info.type = DHCPOFFER.toUInt32 := by simpa using htype
        simp only [handleReply, hear, hstate, htype', if_false]
    | requesting =>
      dsimp only
      split
      · simp only [hear, hstate]
      next htype =>
        have htypes : ¬info.type = DHCPACK.toUInt32 ∧ ¬info.type = DHCPNAK.toUInt32 := by
          simpa using htype
        simp only [handleReply, hear, hstate, htypes.1, htypes.2, if_false]

theorem received_of_takes {m : DhcpMsg} {r : Nat} {ret : Int} {info : DhcpInfo}
    (hdecode : decodeDhcpMsg (dumpDhcpMsg m r) r = .ok (ret, info))
    (htakes : c.takes (dumpDhcpMsg m r) r info = true) :
    { c with reply := m }.received env r = .ok ((c.hear (dumpDhcpMsg m r) info).handleReply env) := by
  have hvalid : isValidReply c.asked (dumpDhcpMsg m r) r = true := (Bool.and_eq_true_iff.mp htakes).1
  unfold received
  dsimp only
  rw [hdecode]
  dsimp only
  rw [show asked { c with reply := dumpDhcpMsg m r, info := info } = c.asked from rfl, if_pos hvalid]
  rfl

end Client

def lanEnv : Env := ⟨#v[2, 0, 0, 0, 0, 1], fun _ => 0⟩

end G361FPlatform.Dhcp
