import G361FPlatform.Library.Run
import G361FPlatform.Dnsmasq.RaLaws
import G361FPlatform.Dnsmasq.Radv

namespace G361FPlatform.Dnsmasq

open Library

def RaOption.prefixOpt : RaOption → Option PrefixOpt
  | .prefixInfo o => some o
  | _ => none

def RaPacket.prefixes (packet : RaPacket) : List PrefixOpt :=
  packet.options.filterMap RaOption.prefixOpt

theorem DhcpOpt6.prefixOpt_eq_none {o : DhcpOpt6} {linkLocal : In6Addr} {x : RaOption} (h : x ∈ o.options linkLocal) :
    x.prefixOpt = none := by
  cases o with
  | dnsServer servers =>
    rw [DhcpOpt6.options] at h
    split at h
    · cases h
    · rw [List.mem_singleton.mp h]
      rfl
  | domainSearch names =>
    rw [DhcpOpt6.options] at h
    split at h
    · cases h
    · rw [List.mem_singleton.mp h]
      rfl
  | other => cases h

theorem filterMap_trailingOptions (iface : Int) (net : Network) (param : RaParam) :
    (trailingOptions iface net param).filterMap RaOption.prefixOpt = [] := by
  rw [List.filterMap_eq_nil_iff]
  intro x hx
  unfold trailingOptions at hx
  dsimp only at hx
  rw [List.mem_append, List.mem_append, List.mem_append] at hx
  rcases hx with ((hx | hx) | hx) | hx
  · obtain ⟨_, -, rfl⟩ := List.mem_map.mp hx
    rfl
  · obtain ⟨_, -, rfl⟩ := List.mem_map.mp hx
    rfl
  · obtain ⟨o, -, hx⟩ := List.mem_flatMap.mp hx
    exact DhcpOpt6.prefixOpt_eq_none hx
  · split at hx
    · cases hx
    · rw [List.mem_singleton.mp hx]
      rfl

/-- The calls that send router advertisements, and another external interface in between. -/
inductive RaCall
  | setExtInterface (name : CString)
  | updateRa (intInterface : CString) (e : Surroundings)
  | deprecateRa (intInterface : CString) (e : Surroundings)
  /-- `send_ra` as `periodic_ra` calls it. -/
  | periodicRa (iface : Int) (interface : CString) (net : Network)

def RaCall.run (w : World κ τ) (s : Radv κ τ) : RaCall → Option RaPacket × Radv κ τ
  | .setExtInterface name => (none, { s with ra := { s.ra with extInterface := name } })
  | .updateRa intInterface e => (Dnsmasq.updateRa w intInterface e s).2
  | .deprecateRa intInterface e => (Dnsmasq.deprecateRa w intInterface e s).2
  | .periodicRa iface interface net =>
    let sent := sendRa w.wild iface interface net s.ra
    (sent.1, { s with ra := sent.2 })

/-- The state, and the prefix option of the last advertisement that was sent. -/
structure Announced (κ τ : Type) where
  radv : Radv κ τ
  last : Option PrefixOpt

def Announced.init (kernel : κ) (chain : τ) : Announced κ τ :=
  ⟨⟨⟨0, 0, [], false⟩, [], .init kernel, chain, []⟩, none⟩

def Announced.step (w : World κ τ) (s : Announced κ τ) (c : RaCall) : Announced κ τ :=
  ⟨(c.run w s.radv).2, match (c.run w s.radv).1 with
    | none => s.last
    | some packet => packet.prefixes.head?⟩

/-- An advertisement has one prefix option, which the globals repeat; one that withdraws has the
option of the one before it, with no time left. -/
def Carries (w : World κ τ) (s : Announced κ τ) (c : RaCall) : Prop :=
  ∀ packet, (c.run w s.radv).1 = some packet → ∃ o, packet.prefixes = [o] ∧
    (c.run w s.radv).2.ra.lastPrefix = o.addr ∧ (c.run w s.radv).2.ra.prefixLen = o.prefixLen ∧
    match c with
    | .deprecateRa .. => ∀ o' ∈ s.last, o.addr = o'.addr ∧ o.prefixLen = o'.prefixLen ∧ o.preferredLifetime = 0
    | _ => True

def Surroundings.chosen (e : Surroundings) (g : RaGlobals) : Option IfAddr :=
  e.nametoindex.bind (e.network.chosen g)

/-- After an advertisement, an option that is made and not sent repeats the globals; and one that
withdraws is made at an address with the prefix length of the globals (or of their prefix, where
that is zero, for a context that is deprecated). -/
def Repeats (w : World κ τ) (s : Announced κ τ) : RaCall → Prop
  | .setExtInterface _ => True
  | .updateRa _ e => s.last.isSome → e.network.enumerated = false ∨ e.network.sent = false →
    ∀ a ∈ e.chosen s.radv.ra, a.plen = s.radv.ra.prefixLen ∧ zeroHost w.wild a.plen a.addr = s.radv.ra.lastPrefix
  | .periodicRa iface _ net => s.last.isSome → net.enumerated = false ∨ net.sent = false →
    ∀ a ∈ net.chosen s.radv.ra iface, a.plen = s.radv.ra.prefixLen ∧
      zeroHost w.wild a.plen a.addr = s.radv.ra.lastPrefix
  | .deprecateRa _ e => s.last.isSome →
    ∀ a ∈ e.chosen { s.radv.ra with gDeprecate := s.radv.ra.lastPrefix ≠ 0 }, a.plen = s.radv.ra.prefixLen ∧
      (s.radv.ra.lastPrefix = 0 → zeroHost w.wild a.plen a.addr = 0 ∧
        (e.network.enumerated = true → e.network.sent = true →
          ∃ c ∈ e.network.raContexts, c.used e.network.optRa = true ∧ c.deprecated = true))

structure Announced.Tracked (w : World κ τ) (s : Announced κ τ) : Prop where
  gDeprecate : s.radv.ra.gDeprecate = false
  lastPrefix : ∀ o ∈ s.last, s.radv.ra.lastPrefix = o.addr
  prefixLen : ∀ o ∈ s.last, s.radv.ra.prefixLen = o.prefixLen
  masked : s.last.isSome → zeroHost w.wild s.radv.ra.prefixLen s.radv.ra.lastPrefix = s.radv.ra.lastPrefix

section

variable {w : World κ τ}

theorem Announced.tracked_init (k : κ) (chain : τ) : (Announced.init k chain).Tracked w :=
  ⟨rfl, (fun _ h => nomatch h), (fun _ h => nomatch h), (fun h => nomatch h)⟩

theorem updateRa_ra (intInterface : CString) {e : Surroundings} {s : Radv κ τ} {iface : Int}
    (h : e.nametoindex = some iface) :
    (updateRa w intInterface e s).2.1 = (sendRa w.wild iface intInterface e.network s.ra).1 ∧
      (updateRa w intInterface e s).2.2.ra = (sendRa w.wild iface intInterface e.network s.ra).2 := by
  unfold updateRa
  rw [h]
  dsimp only
  split
  next hnone => exact ⟨hnone.symm, rfl⟩
  · exact ⟨rfl, rfl⟩

theorem updateRa_none {intInterface : CString} {e : Surroundings} (h : e.nametoindex = none) (s : Radv κ τ) :
    updateRa w intInterface e s = (false, none, s) := by
  unfold updateRa
  rw [h]

theorem deprecateRa_ra (intInterface : CString) {e : Surroundings} {s : Radv κ τ} {iface : Int}
    (h : e.nametoindex = some iface) :
    (deprecateRa w intInterface e s).2.1 =
        (sendRa w.wild iface intInterface e.network { s.ra with gDeprecate := s.ra.lastPrefix ≠ 0 }).1 ∧
      (deprecateRa w intInterface e s).2.2.ra =
        { (sendRa w.wild iface intInterface e.network { s.ra with gDeprecate := s.ra.lastPrefix ≠ 0 }).2 with
          gDeprecate := false } := by
  unfold deprecateRa
  rw [h]
  exact ⟨rfl, rfl⟩

theorem deprecateRa_none {intInterface : CString} {e : Surroundings} (h : e.nametoindex = none) (s : Radv κ τ) :
    (deprecateRa w intInterface e s).2.1 = none ∧ (deprecateRa w intInterface e s).2.2.ra = s.ra := by
  unfold deprecateRa
  rw [h]
  exact ⟨rfl, rfl⟩

theorem Announced.Tracked.withOpt_eq {s : Announced κ τ} (hs : s.Tracked w) (hlast : s.last.isSome = true)
    {net : Network} {a : IfAddr} {o : PrefixOpt} {d : Bool} (hfor : o.IsFor w.wild { s.radv.ra with gDeprecate := d } net a)
    (hplen : a.plen = s.radv.ra.prefixLen)
    (haddr : d = false → zeroHost w.wild a.plen a.addr = s.radv.ra.lastPrefix) :
    o.addr = s.radv.ra.lastPrefix ∧ o.prefixLen = s.radv.ra.prefixLen := by
  refine ⟨?_, hfor.prefixLen.trans hplen⟩
  rw [hfor.addr]
  cases d with
  | true => rw [if_pos rfl, hplen, hs.masked hlast]
  | false => rw [if_neg Bool.noConfusion, haddr rfl]

theorem Announced.Tracked.unsent {s s' : Announced κ τ} (hs : s.Tracked w) (hlast : s'.last = s.last)
    (hg : s'.radv.ra.gDeprecate = false)
    (h : s.last.isSome = true → s'.radv.ra.lastPrefix = s.radv.ra.lastPrefix ∧
      s'.radv.ra.prefixLen = s.radv.ra.prefixLen) : s'.Tracked w := by
  refine ⟨hg, fun o ho => ?_, fun o ho => ?_, fun hsome => ?_⟩
  · rw [hlast] at ho
    exact (h (Option.isSome_iff_exists.mpr ⟨o, ho⟩)).1.trans (hs.lastPrefix o ho)
  · rw [hlast] at ho
    exact (h (Option.isSome_iff_exists.mpr ⟨o, ho⟩)).2.trans (hs.prefixLen o ho)
  · rw [hlast] at hsome
    rw [(h hsome).1, (h hsome).2, hs.masked hsome]

theorem Announced.tracked_sent {s' : Announced κ τ} {g : RaGlobals} {net : Network} {a : IfAddr} {o : PrefixOpt}
    (hlast : s'.last = some o) (hg : s'.radv.ra.gDeprecate = false)
    (hglobals : s'.radv.ra.lastPrefix = o.addr ∧ s'.radv.ra.prefixLen = o.prefixLen)
    (hfor : o.IsFor w.wild g net a) : s'.Tracked w := by
  refine ⟨hg, fun o' ho' => ?_, fun o' ho' => ?_, fun _ => ?_⟩
  · rw [hlast] at ho'
    cases ho'
    exact hglobals.1
  · rw [hlast] at ho'
    cases ho'
    exact hglobals.2
  · rw [hglobals.1, hglobals.2, hfor.addr, hfor.prefixLen, zeroHost_zeroHost]

theorem prefixes_of_options {packet : RaPacket} {o : PrefixOpt} {iface : Int} {net : Network} {param : RaParam}
    (h : packet.options = .prefixInfo o :: trailingOptions iface net param) :
    packet.prefixes = [o] := by
  rw [RaPacket.prefixes, h, List.filterMap_cons, filterMap_trailingOptions]
  rfl

theorem Announced.step_last {s : Announced κ τ} {c : RaCall} (w : World κ τ) :
    ((c.run w s.radv).1 = none → (s.step w c).last = s.last) ∧
      ∀ packet o, (c.run w s.radv).1 = some packet → packet.prefixes = [o] → (s.step w c).last = some o := by
  refine ⟨fun h => ?_, fun packet o h hprefixes => ?_⟩
  · rw [Announced.step, h]
  · rw [Announced.step, h]
    dsimp only
    rw [hprefixes]
    rfl

theorem Announced.Tracked.send {s s' : Announced κ τ} (hs : s.Tracked w) {iface : Int} {name : CString}
    {net : Network} {d : Bool} {sent : Option RaPacket × RaGlobals}
    (heq : sendRa w.wild iface name net { s.radv.ra with gDeprecate := d } = sent)
    (hra : s'.radv.ra = { sent.2 with gDeprecate := false }) (hunsent : sent.1 = none → s'.last = s.last)
    (hsent : ∀ packet o, sent.1 = some packet → packet.prefixes = [o] → s'.last = some o)
    (hrepeats : s.last.isSome = true → net.enumerated = false ∨ net.sent = false →
      ∀ a ∈ net.chosen { s.radv.ra with gDeprecate := d } iface, a.plen = s.radv.ra.prefixLen ∧
        (d = false → zeroHost w.wild a.plen a.addr = s.radv.ra.lastPrefix)) : s'.Tracked w := by
  subst heq
  have hg : s'.radv.ra.gDeprecate = false := by rw [hra]
  rcases sendRa_cases w.wild iface name net { s.radv.ra with gDeprecate := d } with
    ⟨-, heq⟩ | ⟨a, o, hchosen, hfor, hglobals, hcases⟩
  · refine hs.unsent (hunsent (by rw [heq])) hg fun _ => ?_
    rw [hra, heq]
    exact ⟨rfl, rfl⟩
  · have hopt : s'.radv.ra.lastPrefix = o.addr ∧ s'.radv.ra.prefixLen = o.prefixLen := by
      rw [hra, hglobals]
      exact ⟨rfl, rfl⟩
    rcases hcases with ⟨hfailed, hnone⟩ | ⟨-, -, packet, hpacket, hoptions⟩
    · refine hs.unsent (hunsent hnone) hg fun hlast => ?_
      obtain ⟨hplen, haddr⟩ := hrepeats hlast hfailed a hchosen
      obtain ⟨hsame, hsamelen⟩ := hs.withOpt_eq hlast hfor hplen haddr
      exact ⟨hopt.1.trans hsame, hopt.2.trans hsamelen⟩
    · exact Announced.tracked_sent (hsent packet o hpacket (prefixes_of_options hoptions)) hg hopt hfor

theorem RaGlobals.with_gDeprecate {g : RaGlobals} {d : Bool} (h : g.gDeprecate = d) :
    { g with gDeprecate := d } = g := by
  rw [← h]

theorem sendRa_gDeprecate (iface : Int) (name : CString) (net : Network) (g : RaGlobals) :
    (sendRa w.wild iface name net g).2.gDeprecate = g.gDeprecate := by
  rcases sendRa_cases w.wild iface name net g with ⟨-, heq⟩ | ⟨a, o, -, -, hglobals, -⟩
  · rw [heq]
  · rw [hglobals]
    rfl

theorem Announced.Tracked.advertise {s s' : Announced κ τ} (hs : s.Tracked w) {iface : Int} {name : CString}
    {net : Network} (hra : s'.radv.ra = (sendRa w.wild iface name net s.radv.ra).2)
    (hunsent : (sendRa w.wild iface name net s.radv.ra).1 = none → s'.last = s.last)
    (hsent : ∀ packet o, (sendRa w.wild iface name net s.radv.ra).1 = some packet → packet.prefixes = [o] →
      s'.last = some o)
    (hrepeats : s.last.isSome = true → net.enumerated = false ∨ net.sent = false →
      ∀ a ∈ net.chosen s.radv.ra iface, a.plen = s.radv.ra.prefixLen ∧
        zeroHost w.wild a.plen a.addr = s.radv.ra.lastPrefix) : s'.Tracked w := by
  have hself := RaGlobals.with_gDeprecate hs.gDeprecate
  refine hs.send (d := false) rfl ?_ (by rwa [hself]) (by rwa [hself]) fun hlast hfailed a ha => ?_
  · rw [hself]
    have hoff := (sendRa_gDeprecate (w := w) iface name net s.radv.ra).trans hs.gDeprecate
    exact hra.trans (RaGlobals.with_gDeprecate hoff).symm
  · rw [hself] at ha
    obtain ⟨hplen, haddr⟩ := hrepeats hlast hfailed a ha
    exact ⟨hplen, fun _ => haddr⟩

/-- A call whose option repeats the globals where it has to keeps them right. -/
theorem Announced.Tracked.step {s : Announced κ τ} (hs : s.Tracked w) {c : RaCall} (hc : Repeats w s c) :
    (s.step w c).Tracked w := by
  obtain ⟨hunsent, hsent⟩ := Announced.step_last (s := s) (c := c) w
  cases c with
  | setExtInterface name => exact hs.unsent rfl hs.gDeprecate fun _ => ⟨rfl, rfl⟩
  | updateRa intInterface e =>
    cases hindex : e.nametoindex with
    | none =>
      have hrun : RaCall.run w s.radv (.updateRa intInterface e) = (none, s.radv) :=
        congrArg Prod.snd (updateRa_none hindex s.radv)
      refine hs.unsent (hunsent (by rw [hrun])) ?_ fun _ => ?_
      · rw [Announced.step, hrun]
        exact hs.gDeprecate
      · rw [Announced.step, hrun]
        exact ⟨rfl, rfl⟩
    | some iface =>
      obtain ⟨hpacket, hra⟩ : (RaCall.run w s.radv (.updateRa intInterface e)).1 = _ ∧
          (RaCall.run w s.radv (.updateRa intInterface e)).2.ra = _ := updateRa_ra _ hindex
      rw [hpacket] at hunsent hsent
      refine hs.advertise hra hunsent hsent fun hlast hfailed a ha => hc hlast hfailed a ?_
      rw [Surroundings.chosen, hindex]
      exact ha
  | periodicRa iface interface net => exact hs.advertise rfl hunsent hsent hc
  | deprecateRa intInterface e =>
    cases hindex : e.nametoindex with
    | none =>
      obtain ⟨hpacket, hra⟩ : (RaCall.run w s.radv (.deprecateRa intInterface e)).1 = _ ∧
          (RaCall.run w s.radv (.deprecateRa intInterface e)).2.ra = _ := deprecateRa_none hindex s.radv
      refine hs.unsent (hunsent hpacket) ?_ fun _ => ?_
      · rw [Announced.step, hra]
        exact hs.gDeprecate
      · rw [Announced.step, hra]
        exact ⟨rfl, rfl⟩
    | some iface =>
      obtain ⟨hpacket, hra⟩ : (RaCall.run w s.radv (.deprecateRa intInterface e)).1 = _ ∧
          (RaCall.run w s.radv (.deprecateRa intInterface e)).2.ra = _ := deprecateRa_ra _ hindex
      rw [hpacket] at hunsent hsent
      refine hs.send rfl hra hunsent hsent fun hlast _ a ha => ?_
      have hchosen : a ∈ e.chosen { s.radv.ra with gDeprecate := s.radv.ra.lastPrefix ≠ 0 } := by
        rw [Surroundings.chosen, hindex]
        exact ha
      obtain ⟨hplen, hzero⟩ := hc hlast a hchosen
      refine ⟨hplen, fun hd => ?_⟩
      have hnull : s.radv.ra.lastPrefix = 0 := by simpa using hd
      rw [(hzero hnull).1, hnull]

/-- What is sent on an interface. -/
theorem sendRa_prefixes {iface : Int} {name : CString} {net : Network} {g : RaGlobals} {packet : RaPacket}
    (h : (sendRa w.wild iface name net g).1 = some packet) :
    ∃ a o, net.chosen g iface = some a ∧ o.IsFor w.wild g net a ∧ packet.prefixes = [o] ∧
      (sendRa w.wild iface name net g).2 = g.withOpt o ∧ net.enumerated = true ∧ net.sent = true := by
  rcases sendRa_cases w.wild iface name net g with ⟨-, heq⟩ | ⟨a, o, hchosen, hfor, hglobals, hsent⟩
  · rw [heq] at h
    cases h
  · rcases hsent with ⟨-, hnone⟩ | ⟨henum, hsent, packet', hpacket, hoptions⟩
    · rw [hnone] at h
      cases h
    · rw [hpacket] at h
      cases h
      exact ⟨a, o, hchosen, hfor, prefixes_of_options hoptions, hglobals, henum, hsent⟩

theorem Announced.Tracked.carries {s : Announced κ τ} (hs : s.Tracked w) {c : RaCall} (hc : Repeats w s c) :
    Carries w s c := by
  intro packet hpacket
  cases c with
  | setExtInterface name => cases hpacket
  | updateRa intInterface e =>
    cases hindex : e.nametoindex with
    | none =>
      rw [show RaCall.run w s.radv (.updateRa intInterface e) = (none, s.radv) from
        congrArg Prod.snd (updateRa_none hindex s.radv)] at hpacket
      cases hpacket
    | some iface =>
      obtain ⟨hsame, hra⟩ : (RaCall.run w s.radv (.updateRa intInterface e)).1 = _ ∧
          (RaCall.run w s.radv (.updateRa intInterface e)).2.ra = _ := updateRa_ra _ hindex
      rw [hsame] at hpacket
      obtain ⟨a, o, -, -, hprefixes, hglobals, -⟩ := sendRa_prefixes hpacket
      rw [hra, hglobals]
      exact ⟨o, hprefixes, rfl, rfl, trivial⟩
  | periodicRa iface interface net =>
    obtain ⟨a, o, -, -, hprefixes, hglobals, -⟩ := sendRa_prefixes hpacket
    exact ⟨o, hprefixes, congrArg RaGlobals.lastPrefix hglobals, congrArg RaGlobals.prefixLen hglobals, trivial⟩
  | deprecateRa intInterface e =>
    cases hindex : e.nametoindex with
    | none =>
      rw [show (RaCall.run w s.radv (.deprecateRa intInterface e)).1 = none from
        (deprecateRa_none hindex s.radv).1] at hpacket
      cases hpacket
    | some iface =>
      obtain ⟨hsame, hra⟩ : (RaCall.run w s.radv (.deprecateRa intInterface e)).1 = _ ∧
          (RaCall.run w s.radv (.deprecateRa intInterface e)).2.ra = _ := deprecateRa_ra _ hindex
      rw [hsame] at hpacket
      obtain ⟨a, o, hchosen, hfor, hprefixes, hglobals, henum, hsent⟩ := sendRa_prefixes hpacket
      rw [hra, hglobals]
      refine ⟨o, hprefixes, rfl, rfl, fun o' ho' => ?_⟩
      have hlast : s.last.isSome = true := Option.isSome_iff_exists.mpr ⟨o', ho'⟩
      obtain ⟨hplen, hzero⟩ := hc hlast a (by rw [Surroundings.chosen, hindex]; exact hchosen)
      obtain ⟨haddr, hlen⟩ := hs.withOpt_eq hlast hfor hplen fun hd => by
        have hnull : s.radv.ra.lastPrefix = 0 := by simpa using hd
        rw [(hzero hnull).1, hnull]
      refine ⟨haddr.trans (hs.lastPrefix o' ho'), hlen.trans (hs.prefixLen o' ho'), hfor.preferred.mpr ?_⟩
      by_cases hnull : s.radv.ra.lastPrefix = 0
      · exact .inr ((hzero hnull).2 henum hsent)
      · exact .inl (by simpa using hnull)

/-- Every advertisement carries one prefix, and one that withdraws carries the prefix that was
advertised, in every run whose calls repeat it. -/
theorem carries_of_run (w : World κ τ) (k : κ) (chain : τ) {calls : List RaCall}
    (h : Every (Announced.step w) (Repeats w) (.init k chain) calls) :
    Every (Announced.step w) (Carries w) (.init k chain) calls :=
  every_of_every (I := Announced.Tracked w) (fun _ _ hs hc => hs.step hc) (fun _ _ hs hc => hs.carries hc)
    (Announced.tracked_init k chain) h

end

def tethered (ext : CString) (plen : Nat) : Surroundings where
  nametoindex := some 3
  network :=
    { raContexts := [⟨true, false, false, false, false, false, 3600, 0, none, true⟩]
      optRa := false
      addrs := [⟨0xfe800000000000000000000000000001, 64, 3, some ("wlan0" : CString)⟩,
        ⟨0x20010db8000000010000000000000005, plen, 4, some ext⟩]
      enumerated := true
      mtu := none
      macs := []
      optionFilter := fun _ => []
      garbage := 0
      sent := true }

def quietWorld : World Unit Unit :=
  ⟨fun _ _ _ => (true, ()), fun _ _ => (true, ()), fun _ => [], fun _ => 0⟩

def advertiseAndWithdraw (plen : Nat) : List RaCall :=
  [.setExtInterface ("rmnet0" : CString), .updateRa ("wlan0" : CString) (tethered ("rmnet0" : CString) plen),
    .deprecateRa ("wlan0" : CString) (tethered ("rmnet0" : CString) plen)]

theorem carries_of_run_tethered :
    Every (Announced.step quietWorld) (Carries quietWorld) (.init () ()) (advertiseAndWithdraw 64) := by
  refine carries_of_run quietWorld () () ⟨trivial, (fun h => nomatch h), (fun _ => ?_), trivial⟩
  decide +kernel

/-- The global address has another prefix length than the link-local one. -/
theorem not_carries_longPrefix : ¬∀ calls : List RaCall,
    Every (Announced.step quietWorld) (Carries quietWorld) (.init () ()) calls := by
  intro h
  have hlast := (h (advertiseAndWithdraw 80)).2.2.1
  obtain ⟨o, -, -, hlen, hrepeat⟩ := hlast _ rfl
  generalize hs : Announced.step quietWorld _ _ = s at hlen hrepeat
  have hadvertised : s.last.map PrefixOpt.prefixLen = some 80 := by
    rw [← hs]
    decide +kernel
  have hwithdrawn : (RaCall.run quietWorld s.radv
      (.deprecateRa ("wlan0" : CString) (tethered ("rmnet0" : CString) 80))).2.ra.prefixLen = 64 := by
    rw [← hs]
    decide +kernel
  obtain ⟨o', ho', hlen'⟩ := Option.map_eq_some_iff.mp hadvertised
  have hsame := (hrepeat o' ho').2.1
  omega

end G361FPlatform.Dnsmasq
