import G361FPlatform.Dhcp.ClientLaws

namespace G361FPlatform.Dhcp

open Library

def Event.isTimeout : Event → Bool
  | .timeout => true
  | _ => false

def Doubled (k timeout : Nat) : Prop := 1 ≤ k ∧ k ≤ 4 ∧ timeout = TIMEOUT_INITIAL * 2 ^ (k - 1)

/-- A message of the type and with the transaction id. -/
def SentAs (type : UInt8) (xid : UInt32) (p : DhcpMsg × Nat) : Prop :=
  sentType p.1 = type ∧ p.1.xid = xid

structure Sending (xid : UInt32) (n : Nat) (discovers requests : List (DhcpMsg × Nat)) (c : Client) : Prop where
  sent : c.sent = requests ++ discovers
  discover : ∀ p ∈ discovers, SentAs DHCPDISCOVER xid p
  request : ∀ p ∈ requests, SentAs DHCPREQUEST (xid + 1) p
  few : discovers.length ≤ 4
  phase : match c.state with
    | .selecting => c.xid = xid ∧ requests = [] ∧ Doubled discovers.length c.timeout ∧
      (c.result = none → n + 1 = discovers.length)
    | .requesting => c.xid = xid + 1 ∧ Doubled requests.length c.timeout ∧
      (c.result = none → n + 2 = discovers.length + requests.length)

theorem Doubled.next {k timeout : Nat} (h : Doubled k timeout) (hmax : ¬TIMEOUT_MAX ≤ timeout) :
    Doubled (k + 1) (timeout * 2 % 2 ^ 32) := by
  obtain ⟨hpos, hle, rfl⟩ := h
  have hk : k = 1 ∨ k = 2 ∨ k = 3 ∨ k = 4 := by omega
  rcases hk with rfl | rfl | rfl | rfl
  · exact ⟨by decide, by decide, by decide⟩
  · exact ⟨by decide, by decide, by decide⟩
  · exact ⟨by decide, by decide, by decide⟩
  · exact absurd (by decide) hmax

theorem Doubled.timeout_mem {k timeout : Nat} (h : Doubled k timeout) :
    timeout ∈ [4000, 8000, 16000, 32000] := by
  obtain ⟨hpos, hle, rfl⟩ := h
  have hk : k = 1 ∨ k = 2 ∨ k = 3 ∨ k = 4 := by omega
  rcases hk with rfl | rfl | rfl | rfl <;> decide

theorem xid_dumpDhcpMsg (m : DhcpMsg) (len : Nat) : (dumpDhcpMsg m len).xid = m.xid := by
  unfold dumpDhcpMsg
  split <;> rfl

theorem sentAs_discover (hwaddr : Vector UInt8 6) (xid : UInt32) (len size : Nat) :
    SentAs DHCPDISCOVER xid (dumpDhcpMsg (initDhcpDiscoverMsg hwaddr xid).1 len, size) :=
  ⟨sentType_discover hwaddr xid len, xid_dumpDhcpMsg _ _⟩

theorem sentAs_request (hwaddr : Vector UInt8 6) (xid ipaddr serveraddr : UInt32) (len size : Nat) :
    SentAs DHCPREQUEST xid (dumpDhcpMsg (initDhcpRequestMsg hwaddr xid ipaddr serveraddr).1 len, size) := by
  refine ⟨?_, xid_dumpDhcpMsg _ _⟩
  rw [sentType]
  simp only [options_dumpDhcpMsg]
  simp [initDhcpRequestMsg, initDhcpMsg, DhcpMsg.writeOptions]

theorem Client.transmit_selecting (env : Env) {c : Client} (h : c.state = .selecting) :
    ∃ p, SentAs DHCPDISCOVER c.xid p ∧
      c.transmit env = { c with discoverMsg := p.1, sent := p :: c.sent } := by
  obtain ⟨state, timeout, xid, info, discoverMsg, requestMsg, reply, sent, configured, closes, result⟩ := c
  cases h
  exact ⟨(_, _), sentAs_discover env.hwaddr xid (initDhcpDiscoverMsg env.hwaddr xid).2
    (initDhcpDiscoverMsg env.hwaddr xid).2, rfl⟩

theorem Client.transmit_requesting (env : Env) {c : Client} (h : c.state = .requesting) :
    ∃ p, SentAs DHCPREQUEST c.xid p ∧
      c.transmit env = { c with requestMsg := p.1, sent := p :: c.sent } := by
  obtain ⟨state, timeout, xid, info, discoverMsg, requestMsg, reply, sent, configured, closes, result⟩ := c
  cases h
  exact ⟨(_, _), sentAs_request env.hwaddr xid info.ipaddr info.serveraddr
    (initDhcpRequestMsg env.hwaddr xid info.ipaddr info.serveraddr).2
    (initDhcpRequestMsg env.hwaddr xid info.ipaddr info.serveraddr).2, rfl⟩

theorem Client.run_of_result {env : Env} {c : Client} (h : c.result ≠ none) (es : List Event) :
    Client.run env es c = .ok c := by
  cases es with
  | nil => rfl
  | cons e es => rw [run, if_pos (Option.isSome_iff_ne_none.mpr h)]

namespace Sending

variable {env : Env} {xid : UInt32} {n m : Nat} {discovers requests : List (DhcpMsg × Nat)} {c c' : Client}

theorem of_eq (h : Sending xid n discovers requests c) (hstate : c'.state = c.state)
    (hxid : c'.xid = c.xid) (htimeout : c'.timeout = c.timeout) (hsent : c'.sent = c.sent)
    (hresult : c'.result = none → c.result = none ∧ m = n) : Sending xid m discovers requests c' where
  sent := hsent.trans h.sent
  discover := h.discover
  request := h.request
  few := h.few
  phase := by
    have hphase := h.phase
    rw [hstate, hxid, htimeout]
    cases hs : c.state with
    | selecting =>
      rw [hs] at hphase
      refine ⟨hphase.1, hphase.2.1, hphase.2.2.1, fun hres => ?_⟩
      rw [(hresult hres).2]
      exact hphase.2.2.2 (hresult hres).1
    | requesting =>
      rw [hs] at hphase
      refine ⟨hphase.1, hphase.2.1, fun hres => ?_⟩
      rw [(hresult hres).2]
      exact hphase.2.2 (hresult hres).1

theorem discovered (env : Env) (hsent : c.sent = discovers) (hdiscover : ∀ p ∈ discovers, SentAs DHCPDISCOVER xid p)
    (hstate : c.state = .selecting) (hxid : c.xid = xid) (hdoubled : Doubled (discovers.length + 1) c.timeout)
    (hn : n = discovers.length) : ∃ p, Sending xid n (p :: discovers) [] (c.transmit env) := by
  obtain ⟨p, hp, heq⟩ := Client.transmit_selecting env hstate
  rw [hxid] at hp
  rw [heq]
  refine ⟨p, ⟨?_, ?_, (fun q hq => nomatch hq), hdoubled.2.1, ?_⟩⟩
  · exact congrArg (p :: ·) hsent
  · intro q hq
    rcases List.mem_cons.mp hq with rfl | hq
    · exact hp
    · exact hdiscover q hq
  · dsimp only
    rw [hstate]
    exact ⟨hxid, rfl, hdoubled, fun _ => congrArg (· + 1) hn⟩

theorem requested (env : Env) (hsent : c.sent = requests ++ discovers)
    (hdiscover : ∀ p ∈ discovers, SentAs DHCPDISCOVER xid p)
    (hrequest : ∀ p ∈ requests, SentAs DHCPREQUEST (xid + 1) p) (hfew : discovers.length ≤ 4)
    (hstate : c.state = .requesting) (hxid : c.xid = xid + 1)
    (hdoubled : Doubled (requests.length + 1) c.timeout)
    (hn : n + 1 = discovers.length + requests.length) :
    ∃ p, Sending xid n discovers (p :: requests) (c.transmit env) := by
  obtain ⟨p, hp, heq⟩ := Client.transmit_requesting env hstate
  rw [hxid] at hp
  rw [heq]
  refine ⟨p, ⟨?_, hdiscover, ?_, hfew, ?_⟩⟩
  · exact congrArg (p :: ·) hsent
  · intro q hq
    rcases List.mem_cons.mp hq with rfl | hq
    · exact hp
    · exact hrequest q hq
  · dsimp only
    rw [hstate]
    exact ⟨hxid, hdoubled, fun _ => by rw [List.length_cons]; omega⟩

theorem timedOut (h : Sending xid n discovers requests c) (hres : c.result = none) :
    ∃ discovers' requests', Sending xid (n + 1) discovers' requests' (c.timedOut env) := by
  have hphase := h.phase
  unfold Client.timedOut
  split
  · refine ⟨discovers, requests, ?_⟩
    split
    · exact h.of_eq rfl rfl rfl rfl fun hnone => nomatch hnone
    · exact h.of_eq rfl rfl rfl rfl fun hnone => nomatch hnone
  next hmax =>
    cases hs : c.state with
    | selecting =>
      rw [hs] at hphase
      obtain ⟨hxid, hrequests, hdoubled, hn⟩ := hphase
      have hsent := h.sent
      rw [hrequests, List.nil_append] at hsent
      obtain ⟨p, hp⟩ := discovered env (c := { c with timeout := c.timeout * 2 % 2 ^ 32 }) hsent
        h.discover hs hxid (hdoubled.next hmax) (hn hres)
      rw [hs] at hp
      exact ⟨_, _, hp⟩
    | requesting =>
      rw [hs] at hphase
      obtain ⟨hxid, hdoubled, hn⟩ := hphase
      obtain ⟨p, hp⟩ := requested env (c := { c with timeout := c.timeout * 2 % 2 ^ 32 }) h.sent
        h.discover h.request h.few hs hxid (hdoubled.next hmax) (hn hres)
      rw [hs] at hp
      exact ⟨_, _, hp⟩

theorem handleReply (h : Sending xid n discovers requests c) (hres : c.result = none) :
    ∃ requests', Sending xid n discovers requests' (c.handleReply env) := by
  have hphase := h.phase
  unfold Client.handleReply
  cases hs : c.state with
  | selecting =>
    rw [hs] at hphase
    obtain ⟨hxid, hrequests, hdoubled, hn⟩ := hphase
    have hsent := h.sent
    subst hrequests
    dsimp only
    split
    · obtain ⟨p, hp⟩ := requested env (n := n)
        (c := { c with state := .requesting, timeout := TIMEOUT_INITIAL, xid := c.xid + 1 }) hsent
        h.discover h.request h.few rfl (congrArg (· + 1) hxid) ⟨by decide, by decide, rfl⟩ (hn hres)
      exact ⟨_, hp⟩
    · exact ⟨[], h⟩
  | requesting =>
    refine ⟨requests, ?_⟩
    dsimp only
    split
    · exact h.of_eq rfl rfl rfl rfl fun hnone => nomatch hnone
    · split
      · exact h.of_eq rfl rfl rfl rfl fun hnone => nomatch hnone
      · exact h

theorem step (h : Sending xid n discovers requests c) (hres : c.result = none) {e : Event}
    (hstep : c.step env e = .ok c') :
    ∃ discovers' requests', Sending xid (n + [e].countP Event.isTimeout) discovers' requests' c' := by
  by_cases htimeout : e.isTimeout = true
  · cases e with
    | timeout =>
      cases hstep
      exact h.timedOut hres
    | pollFailed errno => cases htimeout
    | packet buffer read => cases htimeout
  rw [List.countP_singleton, if_neg htimeout, Nat.add_zero]
  cases e.kind with
  | timeout he => exact absurd (he ▸ rfl) htimeout
  | fault hfault =>
    obtain ⟨err, herr⟩ := hfault env c
    cases herr.symm.trans hstep
  | quiet ret hheard hquiet =>
    cases (hquiet env c).symm.trans hstep
    refine ⟨discovers, requests, ?_⟩
    cases ret with
    | none => exact h
    | some ret => exact h.of_eq rfl rfl rfl rfl fun hnone => nomatch hnone
  | message data hlen hheard hmessage =>
    rw [hmessage] at hstep
    obtain ⟨ret, info, -, rfl⟩ := Client.received_eq_ok hstep
    have hhear : Sending xid n discovers requests
        (c.hear (dumpDhcpMsg (c.reply.copyFrom data) data.length) info) :=
      h.of_eq rfl rfl rfl rfl fun hnone => ⟨hnone, rfl⟩
    split
    · obtain ⟨requests', h'⟩ := hhear.handleReply hres
      exact ⟨_, _, h'⟩
    · exact ⟨_, _, hhear⟩

/-- The run lemma: while the function has not returned, no timeout is missed. -/
theorem run (h : Sending xid n discovers requests c) (hres : c.result = none) {es : List Event}
    (hrun : Client.run env es c = .ok c') :
    ∃ m discovers' requests', Sending xid m discovers' requests' c' ∧
      (c'.result = none → m = n + es.countP Event.isTimeout) := by
  induction es generalizing n discovers requests c with
  | nil =>
    cases hrun
    exact ⟨n, discovers, requests, h, fun _ => rfl⟩
  | cons e es ih =>
    unfold Client.run at hrun
    rw [hres] at hrun
    rw [if_neg (show ¬(none : Option Int).isSome = true by decide)] at hrun
    split at hrun
    · cases hrun
    next c₁ hstep =>
      obtain ⟨discovers₁, requests₁, h₁⟩ := h.step hres hstep
      by_cases hres₁ : c₁.result = none
      · obtain ⟨m, discovers', requests', h', hm⟩ := ih h₁ hres₁ hrun
        refine ⟨m, discovers', requests', h', fun hnone => ?_⟩
        rw [hm hnone, Nat.add_assoc, ← List.countP_append, List.singleton_append]
      · rw [Client.run_of_result hres₁] at hrun
        cases hrun
        exact ⟨_, discovers₁, requests₁, h₁, fun hnone => absurd hnone hres₁⟩

theorem start (env : Env) (xid : UInt32) (info : DhcpInfo) (discoverMsg requestMsg reply : DhcpMsg) :
    ∃ p, Sending xid 0 [p] [] (Client.start env xid info discoverMsg requestMsg reply) :=
  discovered env rfl (fun q hq => nomatch hq) rfl rfl ⟨by decide, by decide, rfl⟩ rfl

end Sending

/-- Whatever the events of a run are, there are at most four DHCPDISCOVER messages and then at most
four DHCPREQUEST messages, and the function has returned by its eighth timeout. -/
theorem bounded_of_run (env : Env) (xid : UInt32) (info : DhcpInfo) (discoverMsg requestMsg reply : DhcpMsg)
    (es : List Event) (c : Client)
    (hrun : Client.run env es (Client.start env xid info discoverMsg requestMsg reply) = .ok c) :
    (∃ discovers requests, c.sent = requests ++ discovers ∧ discovers.length ≤ 4 ∧ requests.length ≤ 4 ∧
      (∀ p ∈ discovers, SentAs DHCPDISCOVER xid p) ∧ ∀ p ∈ requests, SentAs DHCPREQUEST (xid + 1) p) ∧
    c.timeout ∈ [4000, 8000, 16000, 32000] ∧ c.timeout * 2 < 2 ^ 32 ∧
    (8 ≤ es.countP Event.isTimeout → c.result ≠ none) := by
  obtain ⟨p, hstart⟩ := Sending.start env xid info discoverMsg requestMsg reply
  obtain ⟨m, discovers, requests, h, hm⟩ := hstart.run rfl hrun
  have hphase : requests.length ≤ 4 ∧ (∃ k, Doubled k c.timeout) ∧ (c.result = none → m ≤ 6) := by
    have hphase := h.phase
    have hfew := h.few
    cases hs : c.state with
    | selecting =>
      rw [hs] at hphase
      obtain ⟨-, rfl, hdoubled, hn⟩ := hphase
      refine ⟨by decide, ⟨_, hdoubled⟩, fun hres => ?_⟩
      have := hn hres
      omega
    | requesting =>
      rw [hs] at hphase
      obtain ⟨-, hdoubled, hn⟩ := hphase
      have hle := hdoubled.2.1
      refine ⟨hle, ⟨_, hdoubled⟩, fun hres => ?_⟩
      have := hn hres
      omega
  obtain ⟨hrequests, ⟨k, hdoubled⟩, hcount⟩ := hphase
  have hmem := hdoubled.timeout_mem
  refine ⟨⟨discovers, requests, h.sent, h.few, hrequests, h.discover, h.request⟩, hmem, ?_, fun hlong hres => ?_⟩
  · simp only [List.mem_cons, List.not_mem_nil, or_false] at hmem
    omega
  · have := hcount hres
    have := hm hres
    omega

/-- No server answers: a signal comes in between, and the function has returned. -/
theorem bounded_of_run_silent : ∃ c,
    Client.run ⟨#v[2, 0, 0, 0, 0, 1], fun _ => 0⟩ (.pollFailed EINTR :: List.replicate 8 .timeout)
      (Client.start ⟨#v[2, 0, 0, 0, 0, 1], fun _ => 0⟩ 100 .zero .zero .zero .zero) = .ok c ∧
    c.timeout ∈ [4000, 8000, 16000, 32000] ∧ c.result ≠ none := by
  have hrun : ∃ c, Client.run ⟨#v[2, 0, 0, 0, 0, 1], fun _ => 0⟩ (.pollFailed EINTR :: List.replicate 8 .timeout)
      (Client.start ⟨#v[2, 0, 0, 0, 0, 1], fun _ => 0⟩ 100 .zero .zero .zero .zero) = .ok c := ⟨_, rfl⟩
  obtain ⟨c, hc⟩ := hrun
  obtain ⟨-, htimeout, -, hreturned⟩ := bounded_of_run _ _ _ _ _ _ _ _ hc
  exact ⟨c, hc, htimeout, hreturned (by decide)⟩

end G361FPlatform.Dhcp
