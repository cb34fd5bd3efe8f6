import G361FPlatform.Dhcp.RetransmitLaws
import G361FPlatform.Dhcp.Session
import G361FPlatform.Library.Run

namespace G361FPlatform.Dhcp

open Library

namespace Client

def leaks (c : Client) : Event → Bool
  | .timeout => TIMEOUT_MAX ≤ c.timeout ∧ c.info.type = DHCPOFFER.toUInt32
  | .pollFailed errno => ¬(errno = EAGAIN ∨ errno = EINTR)
  | .packet _ (.failed errno) => errno = ENETDOWN ∨ errno = ENXIO
  | .packet _ (.got _ _) => false

def configures (c : Client) (e : Event) : Option DhcpInfo :=
  match e with
  | .timeout => if TIMEOUT_MAX ≤ c.timeout ∧ c.info.type = DHCPOFFER.toUInt32 then some c.info else none
  | e =>
    match c.heard e with
    | none => none
    | some (reply, r) =>
      match decodeDhcpMsg reply r with
      | .error _ => none
      | .ok (_, info) =>
        if c.takes reply r info = true ∧ c.state = .requesting ∧ info.type = DHCPACK.toUInt32 then some info
        else none

inductive Went (c : Client) (e : Event) (c' : Client) : Prop
  | on : c'.result = none → c'.closes = c.closes → c'.configured = c.configured → c.leaks e = false →
      c.configures e = none → Went c e c'
  | out : c'.result ≠ none → c'.closes = c.closes + (if c.leaks e then 0 else 1) →
      c'.configured = (c.configures e).toList ++ c.configured → Went c e c'

section

variable {env : Env} {c c' : Client}

theorem transmit_keeps (env : Env) (c : Client) : (c.transmit env).result = c.result ∧
    (c.transmit env).closes = c.closes ∧ (c.transmit env).configured = c.configured := by
  cases hs : c.state with
  | selecting =>
    obtain ⟨p, -, heq⟩ := transmit_selecting env hs
    rw [heq]
    exact ⟨rfl, rfl, rfl⟩
  | requesting =>
    obtain ⟨p, -, heq⟩ := transmit_requesting env hs
    rw [heq]
    exact ⟨rfl, rfl, rfl⟩

theorem went_timedOut (hres : c.result = none) : Went c .timeout (c.timedOut env) := by
  unfold timedOut
  by_cases hmax : TIMEOUT_MAX ≤ c.timeout
  · rw [if_pos hmax]
    by_cases htype : c.info.type = DHCPOFFER.toUInt32
    · rw [if_pos htype]
      refine .out (by simp [dhcpConfigure, return_]) ?_ ?_
      · simp [leaks, hmax, htype, dhcpConfigure, return_]
      · simp [configures, hmax, htype, dhcpConfigure, return_]
    · rw [if_neg htype]
      refine .out (by simp [close, return_]) ?_ ?_
      · simp [leaks, htype, close, return_]
      · simp [configures, htype, close, return_]
  · rw [if_neg hmax]
    obtain ⟨hresult, hcloses, hconf⟩ := transmit_keeps env { c with timeout := c.timeout * 2 % 2 ^ 32 }
    exact .on (hresult.trans hres) hcloses hconf (by simp [leaks, hmax]) (by simp [configures, hmax])

theorem went_received (hres : c.result = none) {e : Event} (hleaks : c.leaks e = false)
    {reply : DhcpMsg} {r : Nat} {ret : Int} {info : DhcpInfo} (he : e ≠ .timeout)
    (hheard : c.heard e = some (reply, r)) (hdecode : decodeDhcpMsg reply r = .ok (ret, info)) :
    Went c e (if c.takes reply r info then (c.hear reply info).handleReply env else c.hear reply info) := by
  have hconf : c.configures e = if c.takes reply r info = true ∧ c.state = .requesting ∧
      info.type = DHCPACK.toUInt32 then some info else none := by
    cases e with
    | timeout => exact absurd rfl he
    | pollFailed errno => cases hheard
    | packet buffer read =>
      unfold configures
      dsimp only
      rw [hheard]
      dsimp only
      rw [hdecode]
  by_cases htakes : c.takes reply r info = true
  case neg =>
    rw [if_neg htakes]
    exact .on hres rfl rfl hleaks (by rw [hconf, if_neg (fun h => htakes h.1)])
  rw [if_pos htakes]
  unfold handleReply
  cases hs : c.state with
  | selecting =>
    have hstate : (c.hear reply info).state = .selecting := hs
    rw [hstate]
    dsimp only
    split
    · obtain ⟨hresult, hcloses, hconfigured⟩ := transmit_keeps env { c.hear reply info with
        state := .requesting, timeout := TIMEOUT_INITIAL, xid := (c.hear reply info).xid + 1 }
      refine .on (hresult.trans hres) hcloses hconfigured hleaks ?_
      rw [hconf, if_neg]
      exact fun h => by rw [hs] at h; cases h.2.1
    · refine .on hres rfl rfl hleaks ?_
      rw [hconf, if_neg]
      exact fun h => by rw [hs] at h; cases h.2.1
  | requesting =>
    have hstate : (c.hear reply info).state = .requesting := hs
    rw [hstate]
    dsimp only
    by_cases hack : info.type = DHCPACK.toUInt32
    · rw [if_pos (show (c.hear reply info).info.type = _ from hack)]
      refine .out (by simp [dhcpConfigure, close, return_]) ?_ ?_
      · rw [hleaks]
        rfl
      · rw [hconf, if_pos ⟨htakes, hs, hack⟩]
        rfl
    · have hnak : info.type = DHCPNAK.toUInt32 := by
        have htype := (Bool.and_eq_true_iff.mp htakes).2
        rw [hs] at htype
        simpa [hack] using htype
      rw [if_neg (show ¬(c.hear reply info).info.type = _ from hack),
        if_pos (show (c.hear reply info).info.type = _ from hnak)]
      refine .out (by simp [close, return_]) ?_ ?_
      · rw [hleaks]
        rfl
      · rw [hconf, if_neg (fun h => hack h.2.2)]
        rfl

theorem went (hres : c.result = none) {e : Event} (hstep : c.step env e = .ok c') : Went c e c' := by
  cases e with
  | timeout =>
    cases hstep
    exact went_timedOut hres
  | pollFailed errno =>
    cases hstep
    by_cases herrno : errno = EAGAIN ∨ errno = EINTR
    · rw [if_pos herrno]
      exact .on hres rfl rfl (by simp [leaks, herrno]) rfl
    · rw [if_neg herrno]
      exact .out (by simp [return_]) (by simp [leaks, herrno, return_]) rfl
  | packet buffer read =>
    cases read with
    | failed errno =>
      cases hstep
      by_cases herrno : errno = ENETDOWN ∨ errno = ENXIO
      · refine .out ?_ ?_ ?_
        · simp [refused, herrno, return_]
        · simp [refused, herrno, return_, leaks]
        · simp [refused, herrno, return_, configures, heard, receivePacket]
      · refine .on ?_ ?_ ?_ (by simp [leaks, herrno]) (by simp [configures, heard, receivePacket])
        · simp [refused, herrno, hres]
        · simp [refused, herrno]
        · simp [refused, herrno]
    | got bytes hbytes =>
      cases receives buffer (.got bytes hbytes) with
      | fault hfault =>
        obtain ⟨err, herr⟩ := hfault c.reply
        rw [step, herr] at hstep
        cases hstep
      | refused hrefused =>
        rw [step, hrefused] at hstep
        cases hstep
        exact .on hres rfl rfl rfl (by simp [configures, heard, hrefused])
      | got data hlen hgot =>
        have hret : ¬(data.length : Int) < 0 := by omega
        have hheard : c.heard (.packet buffer (.got bytes hbytes)) =
            some (dumpDhcpMsg (c.reply.copyFrom data) data.length, data.length) := by
          rw [heard, hgot]
          dsimp only
          rw [if_neg hret, Int.toNat_natCast]
        rw [step, hgot] at hstep
        dsimp only at hstep
        rw [if_neg hret, Int.toNat_natCast] at hstep
        obtain ⟨ret, info, hdecode, rfl⟩ := received_eq_ok hstep
        exact went_received hres rfl (by simp) hheard hdecode

def Steps (env : Env) (P : Client → Event → Prop) : Client → List Event → Prop
  | _, [] => True
  | c, e :: es => c.result = none → P c e ∧ ∀ c', c.step env e = .ok c' → Steps env P c' es

theorem steps_of_result {P : Client → Event → Prop} (h : c.result ≠ none) (es : List Event) :
    Steps env P c es := by
  cases es with
  | nil => trivial
  | cons e es => exact fun hnone => absurd hnone h

/-- A run that has returned has one step that leaves the loop; what the others have anyway, the
run has where that step has it. -/
theorem exists_out {es : List Event} (hres : c.result = none) (hrun : run env es c = .ok c')
    (hret : c'.result ≠ none) : ∃ d e, d.closes = c.closes ∧ d.configured = c.configured ∧
      c'.closes = d.closes + (if d.leaks e then 0 else 1) ∧
      c'.configured = (d.configures e).toList ++ d.configured ∧
      ∀ P : Client → Event → Prop, (∀ c e, c.leaks e = false → c.configures e = none → P c e) →
        (Steps env P c es ↔ P d e) := by
  induction es generalizing c with
  | nil =>
    cases hrun
    exact absurd hres hret
  | cons e es ih =>
    unfold run at hrun
    rw [hres, if_neg (show ¬(none : Option Int).isSome = true by decide)] at hrun
    split at hrun
    · cases hrun
    next c₁ hstep =>
      have hsteps : ∀ P, Steps env P c (e :: es) ↔ P c e ∧ Steps env P c₁ es := by
        intro P
        constructor
        · exact fun h => ⟨(h hres).1, (h hres).2 c₁ hstep⟩
        · intro h _
          refine ⟨h.1, fun c₂ h₂ => ?_⟩
          cases hstep.symm.trans h₂
          exact h.2
      cases went hres hstep with
      | on hres₁ hcloses hconf hleaks hnone =>
        obtain ⟨d, e', hcloses', hconf', hclosed, hconfigured, hiff⟩ := ih hres₁ hrun
        refine ⟨d, e', hcloses'.trans hcloses, hconf'.trans hconf, hclosed, hconfigured, fun P hP => ?_⟩
        rw [hsteps, hiff P hP, and_iff_right (hP c e hleaks hnone)]
      | out hout hcloses hconf =>
        rw [run_of_result hout] at hrun
        cases hrun
        refine ⟨c, e, rfl, rfl, hcloses, hconf, fun P _ => ?_⟩
        rw [hsteps, and_iff_left (steps_of_result hout es)]

end

end Client

theorem Call.exists_out {call : Call} {c : Client} (hrun : Client.run call.env call.events call.start = .ok c)
    (hret : c.result ≠ none) : ∃ d e, c.closes = (if d.leaks e then 0 else 1) ∧
      c.configured.head? = d.configures e ∧
      ∀ P : Client → Event → Prop, (∀ c e, c.leaks e = false → c.configures e = none → P c e) →
        (Client.Steps call.env P call.start call.events ↔ P d e) := by
  obtain ⟨hresult, hcloses, hconfigured⟩ := Client.transmit_keeps call.env
    { state := .selecting, timeout := TIMEOUT_INITIAL, xid := call.xid, info := { call.info with type := 0 },
      discoverMsg := call.discoverMsg, requestMsg := call.requestMsg, reply := call.reply, sent := [],
      configured := [], closes := 0, result := none }
  obtain ⟨d, e, hd, hd', hclosed, hconf, hiff⟩ := Client.exists_out hresult hrun hret
  refine ⟨d, e, ?_, ?_, hiff⟩
  · rw [hclosed, hd.trans hcloses, Nat.zero_add]
  · rw [hconf, hd'.trans hconfigured, List.append_nil]
    cases d.configures e <;> rfl

/-- The branches of `dhcp_init_ifc` that return. -/
inductive Call.Returns (call : Call) (saved : DhcpInfo) (r : Returned) : Prop
  | early : (call.getHwaddr ≠ 0 ∨ call.getIfindex ≠ 0) → r = ⟨-1, [], [], none, saved⟩ → Returns call saved r
  | loop (c : Client) (ret : Int) : ¬(call.getHwaddr ≠ 0 ∨ call.getIfindex ≠ 0) →
      Client.run call.env call.events call.start = .ok c → c.result = some ret →
      r = ⟨ret, (openRawSocket call.socket call.bind).2,
        List.replicate c.closes (openRawSocket call.socket call.bind).1, c.configured.head?,
        c.configured.headD saved⟩ → Returns call saved r

theorem returns_of_dhcpInitIfc {call : Call} {saved : DhcpInfo} {r : Returned}
    (h : dhcpInitIfc call saved = .ok (some r)) : call.Returns saved r := by
  unfold dhcpInitIfc at h
  split at h
  next hearly =>
    cases h
    exact .early (.inl hearly) rfl
  next hwaddr =>
    split at h
    next hearly =>
      cases h
      exact .early (.inr hearly) rfl
    next hifindex =>
      obtain ⟨c, hrun, hmap⟩ := map_eq_ok h
      obtain ⟨ret, hret, hr⟩ := Option.map_eq_some_iff.mp hmap
      exact .loop c ret (not_or.mpr ⟨hwaddr, hifindex⟩) hrun hret hr.symm

theorem Completed.exists_returned (call : Completed) (saved : DhcpInfo) :
    ∃ r, dhcpInitIfc call.1 saved = .ok (some r) := by
  obtain ⟨call, r, h⟩ := call
  cases returns_of_dhcpInitIfc h with
  | early hearly _ =>
    refine ⟨⟨-1, [], [], none, saved⟩, ?_⟩
    rcases hearly with hwaddr | hifindex
    · rw [dhcpInitIfc, if_pos hwaddr]
    · rw [dhcpInitIfc, if_pos hifindex, ite_self]
  | loop c ret hlate hrun hret _ =>
    obtain ⟨hwaddr, hifindex⟩ := not_or.mp hlate
    rw [dhcpInitIfc, if_neg hwaddr, if_neg hifindex]
    dsimp only
    rw [hrun, map_ok, hret]
    exact ⟨_, rfl⟩

/-- A call that closes what it opens, and saves no parameters it could not configure (or that
were saved already). -/
def Call.ExitsClean (call : Call) (saved : DhcpInfo) : Prop :=
  call.getHwaddr ≠ 0 ∨ call.getIfindex ≠ 0 ∨
    (call.socket < 0 ∨ 0 ≤ call.bind ∧
      Client.Steps call.env (fun c e => c.leaks e = false) call.start call.events) ∧
    Client.Steps call.env (fun c e => ∀ info, c.configures e = some info →
      call.env.ifcConfigure info = 0 ∨ info = saved) call.start call.events

theorem closed_once_iff (socket bind : Int) (closes : Nat) :
    (∀ n ∈ (openRawSocket socket bind).2.map
      (fun s => (List.replicate closes (openRawSocket socket bind).1).count s), n = 1) ↔
        socket < 0 ∨ 0 ≤ bind ∧ closes = 1 := by
  unfold openRawSocket
  by_cases hsocket : socket < 0
  · rw [if_pos hsocket]
    exact iff_of_true (fun n hn => nomatch hn) (.inl hsocket)
  rw [if_neg hsocket]
  by_cases hbind : bind < 0
  · rw [if_pos hbind]
    have hne : ¬((-1 : Int) == socket) = true := by
      rw [beq_iff_eq]
      omega
    simp only [List.map_cons, List.map_nil, List.count_replicate, if_neg hne, List.forall_mem_singleton]
    omega
  · rw [if_neg hbind]
    simp only [List.map_cons, List.map_nil, List.count_replicate_self, List.forall_mem_singleton]
    omega

theorem Process.clean_step_iff (p : Process) (hp : p.Clean) (call : Completed) :
    (p.step call).Clean ↔ call.1.ExitsClean p.lastGoodInfo := by
  obtain ⟨hsockets, hsaved⟩ := hp
  obtain ⟨r, hr⟩ := call.exists_returned p.lastGoodInfo
  rw [step, hr]
  dsimp only
  cases returns_of_dhcpInitIfc hr with
  | early hearly hreturned =>
    subst hreturned
    refine iff_of_true ⟨hsockets, hsaved⟩ ?_
    exact hearly.imp_right .inl
  | loop c ret hlate hrun hret hreturned =>
    subst hreturned
    obtain ⟨hwaddr, hifindex⟩ := not_or.mp hlate
    obtain ⟨d, e, hcloses, hconf, hiff⟩ := Call.exists_out hrun (by rw [hret]; exact Option.some_ne_none ret)
    have hclosed : c.closes = 1 ↔ d.leaks e = false := by
      rw [hcloses]
      cases d.leaks e <;> decide
    have hheadD : c.configured.headD p.lastGoodInfo = (d.configures e).getD p.lastGoodInfo := by
      rw [← hconf, List.headD_eq_head?_getD]
    unfold Clean Call.ExitsClean
    dsimp only
    rw [hiff _ (fun _ _ hleaks _ => hleaks), hiff _ (fun _ _ _ hnone info hinfo => by rw [hnone] at hinfo; cases hinfo),
      List.forall_mem_append, and_iff_left hsockets, closed_once_iff, hclosed, or_iff_right hwaddr,
      or_iff_right hifindex, hheadD, hconf]
    refine and_congr_right fun _ => ?_
    cases d.configures e with
    | none => exact iff_of_true hsaved fun info hinfo => nomatch hinfo
    | some info =>
      rw [Option.getD_some]
      dsimp only
      by_cases hok : call.1.env.ifcConfigure info = 0
      · rw [if_pos hok]
        exact iff_of_true rfl fun info' hinfo' => .inl (Option.some.inj hinfo' ▸ hok)
      · rw [if_neg hok, ← hsaved]
        constructor
        · exact fun h info' hinfo' => .inr ((Option.some.inj hinfo').symm.trans h)
        · exact fun h => (h info rfl).resolve_left hok

/-- After any sequence of calls all raw sockets were closed once and the parameters that were last
configured are saved, exactly if every call was a clean one. -/
theorem always_clean_iff (p : Process) (hp : p.Clean) (calls : List Completed) :
    Always Process.step Process.Clean p calls ↔
      Every Process.step (fun p call => call.1.ExitsClean p.lastGoodInfo) p calls :=
  always_iff_every (fun _ h => h) (fun p call h => p.clean_step_iff h call) (fun _ _ _ h => h) hp calls

def Client.stepsAll (env : Env) (p : Client → Event → Bool) : Client → List Event → Bool
  | _, [] => true
  | c, e :: es =>
    c.result.isSome || (p c e &&
      match c.step env e with
      | .error _ => true
      | .ok c' => stepsAll env p c' es)

theorem Client.Steps.of_stepsAll {env : Env} {p : Client → Event → Bool} {P : Client → Event → Prop}
    (hp : ∀ c e, p c e = true → P c e) {c : Client} {es : List Event} (h : c.stepsAll env p es = true) :
    Client.Steps env P c es := by
  induction es generalizing c with
  | nil => trivial
  | cons e es ih =>
    intro hres
    unfold stepsAll at h
    rw [hres, Option.isSome_none, Bool.false_or, Bool.and_eq_true] at h
    refine ⟨hp c e h.1, fun c' hstep => ih ?_⟩
    have htail := h.2
    rw [hstep] at htail
    exact htail

def quietCall (events : List Event) : Call where
  xid := 100
  getHwaddr := 0
  getIfindex := 0
  socket := 3
  bind := 0
  env := lanEnv
  info := .zero
  discoverMsg := .zero
  requestMsg := .zero
  reply := .zero
  events := events

/-- After its last timeout it closes its socket. -/
theorem always_clean_quietCall : Always Process.step Process.Clean ⟨.zero, .zero, []⟩
    [⟨quietCall (List.replicate 4 .timeout), _, rfl⟩] := by
  refine (always_clean_iff ⟨.zero, .zero, []⟩ ⟨(fun n hn => nomatch hn), rfl⟩ _).mpr ⟨.inr (.inr ?_), trivial⟩
  refine ⟨.inr ⟨by decide, ?_⟩, ?_⟩
  · exact Client.Steps.of_stepsAll (p := fun c e => !c.leaks e) (fun c e h => by simpa using h)
      (by decide +kernel)
  · exact Client.Steps.of_stepsAll (p := fun c e => c.configures e = none)
      (fun c e h info hinfo => by rw [of_decide_eq_true h] at hinfo; cases hinfo) (by decide +kernel)

/-- Where `poll` fails, its socket stays open. -/
theorem not_clean_pollFailed :
    ¬(Process.step ⟨.zero, .zero, []⟩ ⟨quietCall [.pollFailed 5], _, rfl⟩).Clean := by
  intro h
  have hsockets := h.1 0
  exact absurd (hsockets (by decide +kernel)) (by decide)

end G361FPlatform.Dhcp
