import G361FPlatform.Dhcp.ClientLaws

namespace G361FPlatform.Dhcp

open Library LittleEndian

/-- What an onlooker notes of a run: what was decoded from the DHCPOFFER and from the DHCPACK
that were taken, and the events without the messages that were not. -/
structure History where
  offer : Option DhcpInfo
  ack : Option DhcpInfo
  taken : List Event

namespace History

def empty : History := ⟨none, none, []⟩

def push (e : Event) (h : History) : History := { h with taken := h.taken ++ [e] }

def note (c : Client) (info : DhcpInfo) (h : History) : History :=
  match c.state with
  | .selecting => { h with offer := some info }
  | .requesting => if info.type = DHCPACK.toUInt32 then { h with ack := some info } else h

def after (c : Client) (e : Event) (h : History) : History :=
  match c.heard e with
  | none => h.push e
  | some (reply, r) =>
    match decodeDhcpMsg reply r with
    | .error _ => h
    | .ok (_, info) => if c.takes reply r info then (h.note c info).push e else h

end History

/-- A message that is not taken makes no DHCPOFFER of `info`, and leaves the accepted one in it. -/
def Client.Harmless (c : Client) (e : Event) : Prop :=
  ∀ reply r ret info, c.heard e = some (reply, r) → decodeDhcpMsg reply r = .ok (ret, info) →
    c.takes reply r info = false →
      match c.state with
      | .selecting => info.type ≠ DHCPOFFER.toUInt32
      | .requesting => info = c.info

/-- A run of the loop whose events have `P`. -/
inductive ClientRun (env : Env) (P : Client → Event → Prop) (c₀ : Client) : History → Client → Prop
  | start : ClientRun env P c₀ .empty c₀
  | step {h c e c'} : ClientRun env P c₀ h c → c.result = none → P c e → c.step env e = .ok c' →
      ClientRun env P c₀ (h.after c e) c'

/-- Requests repeat the accepted offer; what is configured comes from the accepted DHCPACK, or
from the accepted offer if there is none. -/
structure Integrity (h : History) (c : Client) : Prop where
  requests : ∀ p ∈ c.sent, sentType p.1 = DHCPREQUEST → ∃ offer, h.offer = some offer ∧ Carries p.1 offer
  configured : ∀ info ∈ c.configured, h.ack = some info ∨ (h.ack = none ∧ h.offer = some info)

structure Tracked (h : History) (c : Client) : Prop where
  integrity : Integrity h c
  running : c.result = none → h.ack = none ∧ c.configured = [] ∧
    match c.state with
    | .selecting => h.offer = none ∧ c.info.type ≠ DHCPOFFER.toUInt32
    | .requesting => h.offer = some c.info

structure Client.Agrees (c d : Client) : Prop where
  eq_with : d = { c with info := d.info, reply := d.reply }
  running : c.result = none →
    match c.state with
    | .selecting => d.info.type ≠ DHCPOFFER.toUInt32
    | .requesting => d.info = c.info

section

variable {env : Env} {c d c₀ : Client} {h : History} {e : Event}

theorem Integrity.push (hi : Integrity h c) (e : Event) : Integrity (h.push e) c :=
  ⟨hi.requests, hi.configured⟩

theorem Integrity.of_eq {c' : Client} (hi : Integrity h c) (hsent : c'.sent = c.sent)
    (hconf : c'.configured = c.configured) : Integrity h c' :=
  ⟨by rw [hsent]; exact hi.requests, by rw [hconf]; exact hi.configured⟩

theorem Tracked.push (ht : Tracked h c) (e : Event) : Tracked (h.push e) c :=
  ⟨ht.integrity.push e, ht.running⟩

theorem Tracked.quit (ht : Tracked h c) (ret : Option Int) : Tracked h (c.quit ret) := by
  cases ret with
  | none => exact ht
  | some ret => exact ⟨ht.integrity.of_eq rfl rfl, fun hres => by cases hres⟩

theorem Tracked.transmit (ht : Tracked h c) (hres : c.result = none) :
    Tracked h (c.transmit env) := by
  have hrun := ht.running hres
  cases hstate : c.state with
  | selecting =>
    rw [hstate] at hrun
    unfold Client.transmit
    rw [hstate]
    refine ⟨⟨fun p hp htype => ?_, ht.integrity.configured⟩, fun _ => ?_⟩
    · rcases List.mem_cons.mp hp with rfl | hp
      · rw [sentType_discover] at htype
        exact absurd htype (by decide)
      · exact ht.integrity.requests p hp htype
    · simpa only [hstate] using hrun
  | requesting =>
    rw [hstate] at hrun
    unfold Client.transmit
    rw [hstate]
    refine ⟨⟨fun p hp htype => ?_, ht.integrity.configured⟩, fun _ => ?_⟩
    · rcases List.mem_cons.mp hp with rfl | hp
      · exact ⟨c.info, hrun.2.2, carries_request env.hwaddr c.xid c.info _⟩
      · exact ht.integrity.requests p hp htype
    · simpa only [hstate] using hrun

theorem Tracked.configure (ht : Tracked h c) {c' : Client} (hconf : c'.configured = c.info :: c.configured)
    (hsent : c'.sent = c.sent) (hres : c'.result ≠ none)
    (hinfo : h.ack = some c.info ∨ (h.ack = none ∧ h.offer = some c.info)) : Tracked h c' := by
  refine ⟨⟨by rw [hsent]; exact ht.integrity.requests, ?_⟩, fun hnone => absurd hnone hres⟩
  intro info hmem
  rw [hconf] at hmem
  rcases List.mem_cons.mp hmem with rfl | hmem
  · exact hinfo
  · exact ht.integrity.configured info hmem

theorem Tracked.timedOut (ht : Tracked h c) (hres : c.result = none) :
    Tracked h (c.timedOut env) := by
  have hrun := ht.running hres
  unfold Client.timedOut
  split
  · split
    next htype =>
      refine ht.configure rfl rfl (by simp [Client.dhcpConfigure, Client.return_]) (.inr ⟨hrun.1, ?_⟩)
      cases hstate : c.state with
      | selecting =>
        rw [hstate] at hrun
        exact absurd htype hrun.2.2.2
      | requesting =>
        rw [hstate] at hrun
        exact hrun.2.2
    · exact ⟨ht.integrity.of_eq rfl rfl, fun hres => by cases hres⟩
  · refine Tracked.transmit ⟨ht.integrity.of_eq rfl rfl, fun _ => ?_⟩ hres
    exact hrun

theorem Tracked.ignored (ht : Tracked h c) (hres : c.result = none) {reply : DhcpMsg} {info : DhcpInfo}
    (hinfo : match c.state with
      | .selecting => info.type ≠ DHCPOFFER.toUInt32
      | .requesting => info = c.info) : Tracked h (c.hear reply info) := by
  have hrun := ht.running hres
  refine ⟨ht.integrity.of_eq rfl rfl, fun _ => ?_⟩
  cases hstate : c.state with
  | selecting =>
    rw [hstate] at hrun hinfo
    simpa only [Client.hear, hstate] using ⟨hrun.1, hrun.2.1, hrun.2.2.1, hinfo⟩
  | requesting =>
    rw [hstate] at hrun hinfo
    subst hinfo
    simpa only [Client.hear, hstate] using hrun

theorem Tracked.taken (ht : Tracked h c) (hres : c.result = none) {reply : DhcpMsg} {r : Nat}
    {info : DhcpInfo} (htakes : c.takes reply r info = true) :
    Tracked (h.note c info) ((c.hear reply info).handleReply env) := by
  have hrun := ht.running hres
  have htype := (Bool.and_eq_true_iff.mp htakes).2
  cases hstate : c.state with
  | selecting =>
    rw [hstate] at hrun htype
    have htype' : info.type = DHCPOFFER.toUInt32 := by simpa using htype
    simp only [Client.handleReply, Client.hear, hstate, htype', if_true, History.note]
    refine Tracked.transmit ⟨⟨fun p hp hreq => ?_, fun i hi => ?_⟩, fun _ => ?_⟩ hres
    · obtain ⟨offer, hoffer, -⟩ := ht.integrity.requests p hp hreq
      rw [hrun.2.2.1] at hoffer
      cases hoffer
    · have hnone : c.configured = [] := hrun.2.1
      rw [hnone] at hi
      cases hi
    · exact ⟨hrun.1, hrun.2.1, rfl⟩
  | requesting =>
    rw [hstate] at hrun htype
    simp only [Client.handleReply, Client.hear, hstate, History.note]
    by_cases hack : info.type = DHCPACK.toUInt32
    · rw [if_pos hack, if_pos hack]
      refine ⟨⟨ht.integrity.requests, fun i hi => ?_⟩, fun hnone => by cases hnone⟩
      have hconf : i ∈ info :: c.configured := hi
      rw [hrun.2.1, List.mem_singleton] at hconf
      exact .inl (congrArg some hconf.symm)
    · have hnak : info.type = DHCPNAK.toUInt32 := by simpa [hack] using htype
      rw [if_neg hack, if_pos hnak, if_neg hack]
      exact ⟨ht.integrity.of_eq rfl rfl, fun hnone => by cases hnone⟩

namespace Client.Agrees

theorem refl_of (hinfo : c.result = none →
      match c.state with
      | .selecting => c.info.type ≠ DHCPOFFER.toUInt32
      | .requesting => True) : c.Agrees c where
  eq_with := rfl
  running := by
    intro hres
    have hinfo := hinfo hres
    cases hstate : c.state with
    | selecting => rwa [hstate] at hinfo
    | requesting => rfl

theorem result (ha : c.Agrees d) : d.result = c.result := by rw [ha.eq_with]

theorem quit (ha : c.Agrees d) (ret : Option Int) : (c.quit ret).Agrees (d.quit ret) := by
  cases ret with
  | none => exact ha
  | some ret =>
    refine ⟨?_, fun hres => by cases hres⟩
    rw [ha.eq_with]
    rfl

theorem transmit (ha : c.Agrees d) (hres : c.result = none) :
    (c.transmit env).Agrees (d.transmit env) := by
  have hrun := ha.running hres
  cases hstate : c.state with
  | selecting =>
    rw [hstate] at hrun
    rw [ha.eq_with]
    unfold Client.transmit
    rw [hstate]
    exact ⟨rfl, fun _ => by simpa only [hstate] using hrun⟩
  | requesting =>
    rw [hstate] at hrun
    rw [ha.eq_with, hrun]
    unfold Client.transmit
    rw [hstate]
    exact ⟨rfl, fun _ => rfl⟩

theorem timedOut (ha : c.Agrees d) (ht : Tracked h c) (hres : c.result = none) :
    (c.timedOut env).Agrees (d.timedOut env) := by
  have hrun := ha.running hres
  have htimeout : d.timeout = c.timeout := by rw [ha.eq_with]
  unfold Client.timedOut
  rw [htimeout]
  split
  · have hreturned : ∀ c' d' : Client, c'.result ≠ none → d' = { c' with info := d'.info, reply := d'.reply } →
        c'.Agrees d' := fun c' d' hne heq => ⟨heq, fun hnone => absurd hnone hne⟩
    have hclosed : c.close.return_ (-1) |>.Agrees (d.close.return_ (-1)) :=
      hreturned _ _ (by simp [Client.return_]) (by rw [ha.eq_with]; rfl)
    have htracked := (ht.running hres).2.2
    cases hstate : c.state with
    | selecting =>
      rw [hstate] at hrun htracked
      rw [if_neg htracked.2, if_neg hrun]
      exact hclosed
    | requesting =>
      rw [hstate] at hrun
      rw [hrun]
      split
      · refine hreturned _ _ (by simp [Client.dhcpConfigure, Client.return_]) ?_
        simp only [Client.dhcpConfigure, Client.return_, hrun]
        rw [ha.eq_with]
      · exact hclosed
  · refine transmit ⟨?_, ?_⟩ hres
    · rw [ha.eq_with]
    · exact fun _ => hrun

theorem ignored (ha : c.Agrees d) (hres : c.result = none) {reply : DhcpMsg} {info : DhcpInfo}
    (hinfo : match c.state with
      | .selecting => info.type ≠ DHCPOFFER.toUInt32
      | .requesting => info = c.info) : (c.hear reply info).Agrees d := by
  have hrun := ha.running hres
  refine ⟨?_, fun _ => ?_⟩
  · rw [ha.eq_with]
    rfl
  · cases hstate : c.state with
    | selecting =>
      rw [hstate] at hrun
      simpa only [Client.hear, hstate] using hrun
    | requesting =>
      rw [hstate] at hrun hinfo
      simp only [Client.hear, hstate, hinfo, hrun]

theorem taken (ha : c.Agrees d) (hres : c.result = none) {reply reply' : DhcpMsg} {r : Nat}
    {info : DhcpInfo} (htakes : c.takes reply r info = true) :
    ((c.hear reply info).handleReply env).Agrees ((d.hear reply' info).handleReply env) := by
  have htype := (Bool.and_eq_true_iff.mp htakes).2
  have hstate' : d.state = c.state := by rw [ha.eq_with]
  cases hstate : c.state with
  | selecting =>
    rw [hstate] at htype
    have htype' : info.type = DHCPOFFER.toUInt32 := by simpa using htype
    simp only [Client.handleReply, Client.hear, hstate', hstate, htype', if_true]
    refine transmit ⟨?_, fun _ => rfl⟩ hres
    rw [ha.eq_with]
  | requesting =>
    rw [hstate] at htype
    simp only [Client.handleReply, Client.hear, hstate', hstate]
    split
    · refine ⟨?_, fun hnone => by cases hnone⟩
      rw [ha.eq_with]
      rfl
    · have hnak : info.type = DHCPNAK.toUInt32 := by simp_all
      rw [if_pos hnak, if_pos hnak]
      refine ⟨?_, fun hnone => by cases hnone⟩
      rw [ha.eq_with]
      rfl

end Client.Agrees

theorem Client.run_concat {es : List Event} (hrun : Client.run env es c₀ = .ok d)
    (hres : d.result = none) {d' : Client} (hstep : d.step env e = .ok d') :
    Client.run env (es ++ [e]) c₀ = .ok d' := by
  induction es generalizing c₀ with
  | nil =>
    cases hrun
    rw [List.nil_append, Client.run, hres, hstep]
    rfl
  | cons e' es ih =>
    unfold Client.run at hrun
    rw [List.cons_append, Client.run]
    split at hrun
    next hsome =>
      cases hrun
      rw [hres] at hsome
      cases hsome
    next hnone =>
      rw [if_neg hnone]
      split at hrun
      · cases hrun
      next c₁ hc₁ => exact ih hrun

/-- One round keeps the invariant, and a client that hears only what is taken keeps up. -/
theorem Tracked.step {c' : Client} (ht : Tracked h c) (hharm : c.Harmless e) (hres : c.result = none)
    (hrun : Client.run env h.taken c₀ = .ok d) (ha : c.Agrees d) (hstep : c.step env e = .ok c') :
    Tracked (h.after c e) c' ∧
      ∃ d', Client.run env (h.after c e).taken c₀ = .ok d' ∧ c'.Agrees d' := by
  have hdres : d.result = none := ha.result.trans hres
  cases e.kind with
  | timeout he =>
    subst he
    cases hstep
    exact ⟨(ht.timedOut hres).push _, _, Client.run_concat hrun hdres rfl, ha.timedOut ht hres⟩
  | fault hfault =>
    obtain ⟨err, herr⟩ := hfault env c
    rw [herr] at hstep
    cases hstep
  | quiet ret hheard hquiet =>
    rw [hquiet env c] at hstep
    cases hstep
    rw [History.after, hheard c]
    exact ⟨(ht.quit ret).push e, _, Client.run_concat hrun hdres (hquiet env d), ha.quit ret⟩
  | message data hlen hheard hmsg =>
    rw [hmsg env c] at hstep
    obtain ⟨ret, info, hdecode, rfl⟩ := Client.received_eq_ok hstep
    rw [History.after, hheard c]
    dsimp only
    rw [hdecode]
    dsimp only
    by_cases htakes : c.takes (dumpDhcpMsg (c.reply.copyFrom data) data.length) data.length info = true
    case neg =>
      rw [if_neg htakes, if_neg htakes]
      have hinfo := hharm _ _ ret info (hheard c) hdecode (by simpa using htakes)
      exact ⟨ht.ignored hres hinfo, d, hrun, ha.ignored hres hinfo⟩
    rw [if_pos htakes, if_pos htakes]
    refine ⟨(ht.taken hres htakes).push e, ?_⟩
    -- The other client hears the same bytes over another reply.
    have hsame := (sameUpTo_copyFrom hlen c.reply d.reply).dump
    have hasked : d.asked = c.asked := by
      rw [ha.eq_with]
      rfl
    have htakes' : d.takes (dumpDhcpMsg (d.reply.copyFrom data) data.length) data.length info = true := by
      have hstate : d.state = c.state := by rw [ha.eq_with]
      rw [Client.takes, hsame.isValidReply, hasked, hstate]
      exact htakes
    have hstep' : d.step env e = .ok ((d.hear (dumpDhcpMsg (d.reply.copyFrom data) data.length)
        info).handleReply env) := by
      rw [hmsg env d]
      exact Client.received_of_takes (by rw [hsame.decodeDhcpMsg hlen, hdecode]) htakes'
    have hnote : ((h.note c info).push e).taken = h.taken ++ [e] := by
      unfold History.push History.note
      split
      · rfl
      · split <;> rfl
    rw [hnote]
    exact ⟨_, Client.run_concat hrun hdres hstep', ha.taken hres htakes⟩

theorem tracked_of_clientRun (h₀ : Tracked .empty c₀) (ha : c₀.Agrees c₀)
    (hrun : ClientRun env Client.Harmless c₀ h c) :
    Tracked h c ∧ ∃ d, Client.run env h.taken c₀ = .ok d ∧ c.Agrees d := by
  induction hrun with
  | start => exact ⟨h₀, c₀, rfl, ha⟩
  | step _ hres hharm hstep ih =>
    obtain ⟨ht, d, hd, had⟩ := ih
    exact ht.step hharm hres hd had hstep

end

section

variable (env : Env) (xid : UInt32) (info : DhcpInfo) (discoverMsg requestMsg reply : DhcpMsg)

theorem tracked_start : Tracked .empty (Client.start env xid info discoverMsg requestMsg reply) := by
  refine Tracked.transmit ⟨⟨fun p hp _ => ?_, fun i hi => ?_⟩, fun _ => ?_⟩ rfl
  · cases hp
  · cases hi
  · exact ⟨rfl, rfl, rfl, show (0 : UInt32) ≠ DHCPOFFER.toUInt32 by decide⟩

theorem agrees_start : (Client.start env xid info discoverMsg requestMsg reply).Agrees
    (Client.start env xid info discoverMsg requestMsg reply) :=
  .refl_of fun _ => show (0 : UInt32) ≠ DHCPOFFER.toUInt32 by decide

end

/-- In every run whose rejected messages decode to nothing new, requests and configuration come
from what was accepted, and the rejected messages might as well not have come. -/
theorem integrity_of_clientRun (env : Env) (xid : UInt32) (info : DhcpInfo)
    (discoverMsg requestMsg reply : DhcpMsg) {h : History} {c : Client}
    (hrun : ClientRun env Client.Harmless (Client.start env xid info discoverMsg requestMsg reply) h c) :
    Integrity h c ∧ ∃ d,
      Client.run env h.taken (Client.start env xid info discoverMsg requestMsg reply) = .ok d ∧
        d.sent = c.sent ∧ d.configured = c.configured ∧ d.result = c.result := by
  obtain ⟨ht, d, hd, ha⟩ := tracked_of_clientRun (tracked_start env xid info discoverMsg requestMsg reply)
    (agrees_start env xid info discoverMsg requestMsg reply) hrun
  refine ⟨ht.integrity, d, hd, ?_, ?_, ha.result⟩
  · rw [ha.eq_with]
  · rw [ha.eq_with]

def Client.track (env : Env) (p : Client → Event → Bool) :
    List Event → History → Client → Option (History × Client)
  | [], h, c => some (h, c)
  | e :: es, h, c =>
    if c.result = none ∧ p c e = true then
      match c.step env e with
      | .error _ => none
      | .ok c' => track env p es (h.after c e) c'
    else none

theorem ClientRun.of_track {env : Env} {p : Client → Event → Bool} {P : Client → Event → Prop}
    (hp : ∀ c e, p c e = true → P c e) {c₀ c c' : Client} {h h' : History} {es : List Event}
    (hrun : ClientRun env P c₀ h c) (htrack : Client.track env p es h c = some (h', c')) :
    ClientRun env P c₀ h' c' := by
  induction es generalizing h c with
  | nil =>
    cases htrack
    exact hrun
  | cons e es ih =>
    unfold Client.track at htrack
    split at htrack
    next hcond =>
      split at htrack
      · cases htrack
      next c₁ hstep => exact ih (hrun.step hcond.1 (hp c e hcond.2) hstep) htrack
    · cases htrack

def Client.takesAll (c : Client) (e : Event) : Bool :=
  match c.heard e with
  | none => true
  | some (reply, r) =>
    match decodeDhcpMsg reply r with
    | .error _ => true
    | .ok (_, info) => c.takes reply r info

theorem Client.Harmless.of_takesAll (c : Client) (e : Event) (h : c.takesAll e = true) :
    c.Harmless e := by
  intro reply r ret info hheard hdecode hnot
  rw [takesAll, hheard] at h
  dsimp only at h
  rw [hdecode] at h
  dsimp only at h
  rw [hnot] at h
  cases h

def offerMsg (xid yiaddr serveraddr : UInt32) : DhcpMsg :=
  { DhcpMsg.zero with
    op := OP_BOOTREPLY
    htype := HTYPE_ETHER
    hlen := 6
    xid := xid
    yiaddr := yiaddr
    chaddr := lanEnv.hwaddr ++ Vector.replicate 10 (0 : UInt8) }.writeOptions 0
      ([OPT_COOKIE1, OPT_COOKIE2, OPT_COOKIE3, OPT_COOKIE4, OPT_MESSAGE_TYPE, 1, DHCPOFFER] ++
        [OPT_SERVER_ID, 4] ++ bytes32 serveraddr ++ [OPT_END])

def offerBytes (xid : UInt32) : List UInt8 :=
  ((sendPacket (offerMsg xid 5 6) 252 6 0xffffffff 67 68).toOption).getD []

theorem length_offerBytes : (offerBytes 100).length ≤ Packet.size ∧
    (offerBytes 99).length ≤ Packet.size := by decide +kernel

def lanStart : Client := Client.start lanEnv 100 .zero .zero .zero .zero

/-- An offer is taken after one timeout, and two requests for it are sent. -/
theorem integrity_lan : ∃ h c, ClientRun lanEnv Client.Harmless lanStart h c ∧ c.sent.length = 4 ∧
    Integrity h c := by
  have hseen : (Client.track lanEnv Client.takesAll
      [.timeout, .packet (Packet.ofBytes []) (.got _ length_offerBytes.1), .timeout] .empty
        lanStart).map (fun p => p.2.sent.length) = some 4 := by
    decide +kernel
  obtain ⟨⟨h, c⟩, htrack, hsent⟩ := Option.map_eq_some_iff.mp hseen
  have hrun : ClientRun lanEnv Client.Harmless lanStart h c :=
    ClientRun.of_track Client.Harmless.of_takesAll .start htrack
  exact ⟨h, c, hrun, hsent, (integrity_of_clientRun lanEnv 100 .zero .zero .zero .zero hrun).1⟩

/-- An offer with a foreign transaction id is rejected, and configured when all timeouts are
through. -/
theorem not_integrity_lan :
    ∃ h c, ClientRun lanEnv (fun _ _ => True) lanStart h c ∧ ¬Integrity h c := by
  have hseen : (Client.track lanEnv (fun _ _ => true)
      [.packet (Packet.ofBytes []) (.got _ length_offerBytes.2), .timeout, .timeout, .timeout,
        .timeout] .empty lanStart).map
          (fun p => (p.1.offer, p.1.ack, p.2.configured.map DhcpInfo.ipaddr)) =
      some (none, none, [5]) := by
    decide +kernel
  obtain ⟨⟨h, c⟩, htrack, hobs⟩ := Option.map_eq_some_iff.mp hseen
  obtain ⟨hoffer, hobs⟩ := Prod.mk.inj hobs
  obtain ⟨hack, hconf⟩ := Prod.mk.inj hobs
  have hstart : ClientRun lanEnv (fun _ _ => True) lanStart .empty lanStart := .start
  refine ⟨h, c, hstart.of_track (fun _ _ _ => trivial) htrack, fun hint => ?_⟩
  obtain ⟨info, hmem, -⟩ := List.mem_map.mp (hconf ▸ List.mem_singleton_self 5)
  rcases hint.configured info hmem with heq | ⟨-, heq⟩
  · rw [hack] at heq
    cases heq
  · rw [hoffer] at heq
    cases heq

end G361FPlatform.Dhcp
