import G361FPlatform.Dnsmasq.RelayLaws
import G361FPlatform.Library.Sound

namespace G361FPlatform.Dnsmasq

open Library

section Servers

def ids (servers : List ServerNode) : List Nat := servers.map (·.1)

variable {servers : List ServerNode} {p : Nat}

theorem ids_updateServer (f : Server → Server) : ids (updateServer p f servers) = ids servers := by
  rw [ids, ids, updateServer, List.map_map]
  refine List.map_congr_left fun node _ => ?_
  rw [Function.comp_apply]
  split
  next h => exact h.symm
  next => rfl

theorem exists_of_mem_ids (h : p ∈ ids servers) : ∃ node ∈ servers, node.1 = p := List.mem_map.mp h

theorem findServer_sound (h : p ∈ ids servers) : Sound (findServer servers p) fun _ => True := by
  obtain ⟨node, hnode, hp⟩ := exists_of_mem_ids h
  unfold findServer
  split
  next => exact .ok trivial
  next hnone => exact absurd (List.find?_eq_none.mp hnone node hnode) (by simpa using hp)

theorem circleFrom_sound (h : p ∈ ids servers) : Sound (circleFrom servers p) fun circle => circle.Perm servers := by
  obtain ⟨node, hnode, hp⟩ := exists_of_mem_ids h
  have hany : servers.any (·.1 = p) = true := List.any_eq_true.mpr ⟨node, hnode, by simpa using hp⟩
  rw [circleFrom, if_pos hany]
  refine .ok (List.perm_append_comm.trans ?_)
  rw [List.takeWhile_append_dropWhile]

theorem circleAfter_sound (h : p ∈ ids servers) :
    Sound (circleAfter servers p) fun circle => circle.Perm servers := by
  refine .map ((circleFrom_sound h).imp fun circle hperm => ?_)
  refine List.Perm.trans ?_ hperm
  cases circle with
  | nil => exact .refl _
  | cons node circle => exact List.perm_append_singleton node circle

end Servers

section Sending

/-- Where the pointers of the loop that sends lead. -/
structure Forwarding.Points (nodes : List Nat) (s : Forwarding) : Prop where
  sentto : ∀ p ∈ s.frec.sentto, p ∈ nodes
  saved : ∀ p ∈ s.srvSave, p ∈ nodes
  servers : ids s.servers = nodes

variable {nodes : List Nat} {s s' : Forwarding} {w : Outside}

theorem pickSocket_points {serv : Server} {fd : Int} (h : s.Points nodes)
    (hpick : pickSocket w serv s = some (fd, s')) : s'.Points nodes := by
  unfold pickSocket at hpick
  split at hpick
  · cases hpick
    exact h
  · split at hpick <;> split at hpick
    · cases hpick
      exact ⟨h.sentto, h.saved, h.servers⟩
    · split at hpick
      · cases hpick
        exact ⟨h.sentto, h.saved, h.servers⟩
      · cases hpick
    · cases hpick
      exact ⟨h.sentto, h.saved, h.servers⟩
    · split at hpick
      · cases hpick
        exact ⟨h.sentto, h.saved, h.servers⟩
      · cases hpick

theorem sent_points {p : Nat} (h : s.Points nodes) (hp : p ∈ nodes) (fd : Int) (packet : Packet) :
    (s.sent p fd packet).Points nodes where
  sentto := by
    rintro _ ⟨⟩
    exact hp
  saved := by
    rintro _ ⟨⟩
    exact hp
  servers := by
    rw [← h.servers, Forwarding.sent, ids_updateServer]

theorem sendLoop_points (type : UInt32) (domain : Option CString) (packet : Packet) {circle : List ServerNode}
    (hcircle : ∀ node ∈ circle, node.1 ∈ nodes) (h : s.Points nodes) :
    (sendLoop w type domain packet circle s).Points nodes := by
  induction circle generalizing s with
  | nil => exact h
  | cons node circle ih =>
    have hnode := hcircle node List.mem_cons_self
    have hrest := fun n hn => hcircle n (List.mem_cons_of_mem node hn)
    rw [sendLoop]
    split
    next =>
      split
      next => exact h
      next fd s' hpick =>
        have hpicked := pickSocket_points h hpick
        split
        next =>
          have hsent := sent_points hpicked hnode fd packet
          dsimp only
          split
          next => exact hsent
          next => exact ih hrest ⟨hsent.sentto, hsent.saved, hsent.servers⟩
        next => exact ih hrest hpicked
    next => exact ih hrest h

end Sending

section Forwarder

/-- The servers that there are have the addresses `nodes`, and every pointer to a server leads to one of them. -/
structure Forwarder.Points (nodes : List Nat) (st : Forwarder) : Prop where
  sentto : ∀ f ∈ st.frecs, ∀ p ∈ f.sentto, p ∈ nodes
  last : ∀ p ∈ st.lastServer, p ∈ nodes
  saved : ∀ p ∈ st.srvSave, p ∈ nodes
  servers : ids st.servers = nodes

variable {nodes : List Nat} {st : Forwarder} {w : Outside} {now : Int} {q : Query}

theorem Forwarder.Points.set (h : st.Points nodes) {place : Nat} {g : Frec} (hg : ∀ p ∈ g.sentto, p ∈ nodes) :
    ∀ f ∈ st.frecs.set place g, ∀ p ∈ f.sentto, p ∈ nodes := by
  intro f hf p hp
  rcases List.mem_or_eq_of_mem_set hf with hmem | rfl
  · exact h.sentto f hmem p hp
  · exact hg p hp

theorem sendAttempt_points (h : st.Points nodes) (header : Packet) (addrp : Option MySockaddr) {a : Attempt}
    (hfrec : ∀ p ∈ a.frec.sentto, p ∈ nodes) (hcircle : ∀ node ∈ a.circle, node.1 ∈ nodes) :
    (sendAttempt w q header addrp a st).2.1.Points nodes := by
  have hstart : Forwarding.Points nodes
      ⟨a.frec, st.servers, st.socks, st.srvSave, st.rfdSave, false, []⟩ := ⟨hfrec, h.saved, h.servers⟩
  unfold sendAttempt
  generalize withMac w st.opts q (header.setId a.frec.newId) = packet
  dsimp only
  have hloop := sendLoop_points (w := w) a.type a.domain packet hcircle hstart
  generalize sendLoop w a.type a.domain packet a.circle
    ⟨a.frec, st.servers, st.socks, st.srvSave, st.rfdSave, false, []⟩ = s at hloop ⊢
  split
  next => exact ⟨h.set hloop.sentto, h.last, hloop.saved, hloop.servers⟩
  next => exact ⟨h.set (g := (freeFrec s.frec s.socks).1) nofun, h.last, hloop.saved, hloop.servers⟩

theorem retryAttempt_sound (h : st.Points nodes) {place : Nat} {f : Frec} (hf : f ∈ st.frecs)
    (huse : f.inUse = true) :
    Sound (retryAttempt st place f) fun retry => retry.2.Points nodes ∧
      (∀ p ∈ retry.1.frec.sentto, p ∈ nodes) ∧ ∀ node ∈ retry.1.circle, node.1 ∈ nodes := by
  obtain ⟨p, hp⟩ := Option.isSome_iff_exists.mp huse
  have hmem := h.sentto f hf p hp
  have hnode : p ∈ ids st.servers := h.servers ▸ hmem
  unfold retryAttempt
  rw [hp]
  refine .bind (findServer_sound hnode) fun serv _ => .map ((circleAfter_sound hnode).imp fun circle hperm => ?_)
  refine ⟨⟨h.sentto, ?_, h.saved, ?_⟩, ?_, fun node hn => ?_⟩
  · dsimp only
    split
    · exact h.last
    · nofun
  · dsimp only
    rw [ids_updateServer]
    exact h.servers
  · dsimp only
    split
    · exact h.sentto f hf
    · intro p' hp'
      exact Option.some.inj hp' ▸ hmem
  · rw [← h.servers]
    exact List.mem_map_of_mem (hperm.mem_iff.mp hn)

theorem mem_of_getNewFrec {ftabsize : Nat} {wait : Bool} {frecs : List Frec} {socks : RandomSocks} {f : Frec}
    (hf : f ∈ (getNewFrec w ftabsize now wait frecs socks).frecs) (huse : f.inUse = true) : f ∈ frecs := by
  have hgood := (scanFrecs_spec now frecs socks).good (getNewFrec_cases w ftabsize now wait frecs socks)
  obtain ⟨pre, mid, heq, hpre, hmid⟩ := hgood.kept
  rw [heq] at hf
  rcases List.mem_append.mp hf with hmem | hmem
  · cases huse.symm.trans (hpre f hmem)
  · clear heq hf hgood
    induction hmid with
    | nil => cases hmem
    | @cons g g' _ _ hkept _ ih =>
      rcases List.mem_cons.mp hmem with rfl | hmem
      · rcases hkept with rfl | ⟨hfree, -⟩
        · exact List.mem_cons_self
        · cases huse.symm.trans hfree
      · exact List.mem_cons_of_mem _ (ih hmem)

theorem getNewFrec_points (h : st.Points nodes) (w : Outside) (now : Int) (wait : Bool) :
    Forwarder.Points nodes { st with
      frecs := (getNewFrec w st.opts.ftabsize now wait st.frecs st.socks).frecs
      socks := (getNewFrec w st.opts.ftabsize now wait st.frecs st.socks).socks } where
  sentto f hf p hp := h.sentto f (mem_of_getNewFrec hf (Option.isSome_of_mem hp)) p hp
  last := h.last
  saved := h.saved
  servers := h.servers

theorem getId_sound (frecs : List Frec) (crc : UInt32) (rand : List UInt16) :
    Sound (getId frecs crc rand) fun _ => True := by
  induction rand with
  | nil => exact .fuel _
  | cons ret rand ih =>
    rw [getId]
    split
    · exact ih
    · exact .ok trivial

theorem startNew_sound (h : st.Points nodes) (type : UInt32) :
    Sound (startNew now type st) fun start => start.2.2.Points nodes ∧ ∀ node ∈ start.1, node.1 ∈ nodes := by
  have hall : ∀ node ∈ st.servers, node.1 ∈ nodes := by
    rw [← h.servers]
    exact fun node hnode => List.mem_map_of_mem hnode
  unfold startNew
  split
  next =>
    split
    next => exact .ok ⟨h, hall⟩
    next =>
      split
      next => exact .ok ⟨⟨h.sentto, h.last, h.saved, h.servers⟩, hall⟩
      next p hp =>
        split
        next => exact .ok ⟨⟨h.sentto, h.last, h.saved, h.servers⟩, hall⟩
        next =>
          have hnode : p ∈ ids st.servers := h.servers ▸ h.last p hp
          refine .map ((circleFrom_sound hnode).imp fun circle hperm => ?_)
          exact ⟨⟨h.sentto, h.last, h.saved, h.servers⟩, fun node hn => hall node (hperm.mem_iff.mp hn)⟩
  next => exact .ok ⟨h, hall⟩

theorem forwardNew_sound (h : st.Points nodes) (header : Packet) (search : ServerSearch) :
    Sound (forwardNew w now q header search st) fun next => next.2.1.Points nodes := by
  have hgood := (scanFrecs_spec now st.frecs st.socks).good
    (getNewFrec_cases w st.opts.ftabsize now false st.frecs st.socks)
  have hworn := getNewFrec_points h w now false
  unfold forwardNew
  generalize getNewFrec w st.opts.ftabsize now false st.frecs st.socks = new at hgood hworn
  dsimp only
  split
  next => exact .ok hworn
  next place hfound =>
    obtain ⟨f, hk, hfree, -⟩ := hgood.found rfl place hfound
    rw [hk]
    refine .bind (getId_sound _ _ _) fun newId _ => .map ((startNew_sound hworn search.type).imp ?_)
    rintro ⟨circle, all, st₁⟩ ⟨hpoints, hcircle⟩
    have hnone : ∀ p ∈ (newRecord { q with header } (questionsCrc q.header) newId search.norebind all f).sentto,
        p ∈ nodes := by
      intro p hp
      cases (Option.isSome_of_mem (hp : p ∈ f.sentto)).symm.trans hfree
    exact sendAttempt_points (a := ⟨place, _, search.type, search.domain, circle⟩) hpoints header search.addr hnone
      hcircle

def InUseAt (frecs : List Frec) (place : Nat) : Prop := ∃ f, frecs[place]? = some f ∧ f.inUse = true

theorem forwardQuery_sound (h : st.Points nodes) {forward : Option Nat}
    (hforward : ∀ place ∈ forward, InUseAt st.frecs place) :
    Sound (forwardQuery w now q forward st) fun next => next.2.1.Points nodes := by
  unfold forwardQuery
  dsimp only
  split
  next => exact .ok h
  next =>
    split
    next place hplace =>
      have hat : InUseAt st.frecs place := by
        rcases Option.or_eq_some_iff.mp hplace with hsome | ⟨-, hlookup⟩
        · exact hforward place hsome
        · obtain ⟨f, hk, huse, -⟩ := lookupFrecBySender_spec hlookup
          exact ⟨f, hk, huse⟩
      obtain ⟨f, hk, huse⟩ := hat
      rw [hk]
      refine .map ((retryAttempt_sound h (List.mem_of_getElem? hk) huse).imp ?_)
      rintro ⟨a, st₁⟩ ⟨hpoints, hfrec, hcircle⟩
      exact sendAttempt_points hpoints _ none hfrec hcircle
    next =>
      split
      next => exact .ok h
      next => exact forwardNew_sound h _ _

theorem goodServer_mem {servers : List ServerNode} {addr : MySockaddr} {p : Nat}
    (h : goodServer servers addr = some p) : p ∈ ids servers := by
  obtain ⟨node, hnode, rfl⟩ := Option.map_eq_some_iff.mp h
  exact List.mem_map_of_mem (List.mem_of_find?_eq_some hnode)

theorem replyServer_points (h : st.Points nodes) {p : Nat} (hp : p ∈ nodes) (d : Datagram) (serv : Server) :
    (replyServer st.opts d serv p st).2.Points nodes := by
  obtain ⟨heq, hlast⟩ := replyServer_spec st.opts d serv p st
  generalize (replyServer st.opts d serv p st).2 = st₁ at heq hlast
  rw [heq]
  refine ⟨h.sentto, fun p' hp' => ?_, h.saved, h.servers⟩
  have hsome : st₁.lastServer = some p' := hp'
  rw [hsome] at hlast
  rcases hlast with hlast | hlast | hlast | hlast
  · exact h.last p' hlast.symm
  · cases hlast
  · exact Option.some.inj hlast ▸ hp
  · exact h.servers ▸ goodServer_mem hlast.symm

theorem finishReply_points (h : st.Points nodes) (d : Datagram) (server : Option Nat) {place : Nat} {f : Frec}
    (hf : f ∈ st.frecs) : (finishReply w d server place f st).1.Points nodes := by
  have hcases := finishReply_cases w d server place f st
  generalize finishReply w d server place f st = next at hcases ⊢
  cases hcases with
  | done g => exact ⟨h.set (g := (freeFrec g st.socks).1) nofun, h.last, h.saved, h.servers⟩
  | kept => exact ⟨h.set (h.sentto f hf), h.last, h.saved, h.servers⟩

theorem replyQuery_sound (h : st.Points nodes) (d : Datagram) :
    Sound (replyQuery w now d st) fun next => next.1.Points nodes := by
  have hstart : Forwarder.Points nodes { st with srvSave := none } := ⟨h.sentto, h.last, nofun, h.servers⟩
  unfold replyQuery
  dsimp only
  split
  next => exact .ok hstart
  next =>
    split
    next => exact .ok hstart
    next place hplace =>
      obtain ⟨f, hk, huse, -⟩ := lookupFrec_spec hplace
      have hf := List.mem_of_getElem? hk
      rw [hk]
      dsimp only
      split
      next hnone =>
        rw [Frec.inUse, hnone] at huse
        cases huse
      next p hp =>
        have hmem := h.sentto f hf p hp
        split
        next header _ =>
          have hat : ∀ place' ∈ some place, InUseAt st.frecs place' := by
            rintro _ ⟨⟩
            exact ⟨f, hk, huse⟩
          exact .map (forwardQuery_sound hstart hat)
        next =>
          refine .map ((findServer_sound (h.servers ▸ hmem)).imp fun serv _ => ?_)
          have heq := (replyServer_spec st.opts d serv p { st with srvSave := none }).1
          refine finishReply_points (replyServer_points hstart hmem d serv) d _ ?_
          rw [heq]
          exact hf

end Forwarder

section Gone

def Forwarder.Knows (st : Forwarder) (p : Nat) : Prop :=
  (∃ f ∈ st.frecs, f.sentto = some p) ∨ st.lastServer = some p ∨ st.srvSave = some p

theorem forget_eq_some {ref : Option Nat} {p p' : Nat} (h : (if ref = some p then none else ref) = some p') :
    ref = some p' ∧ p' ≠ p := by
  split at h
  next => cases h
  next hne => exact ⟨h, fun heq => hne (heq ▸ h)⟩

theorem forwarderGone_knows {st : Forwarder} {p p' : Nat} (h : (forwarderGone p st).1.Knows p') :
    st.Knows p' ∧ p' ≠ p := by
  rcases h with ⟨g, hg, hp'⟩ | hlast | hsaved
  · rw [forwarderGone_frecs] at hg
    obtain ⟨f, hf, rfl⟩ := List.mem_map.mp hg
    unfold Frec.goneFrom at hp'
    split at hp'
    next => cases hp'
    next hne => exact ⟨.inl ⟨f, hf, hp'⟩, fun heq => hne (heq ▸ hp')⟩
  · exact (forget_eq_some hlast).imp_left fun h => .inr (.inl h)
  · exact (forget_eq_some hsaved).imp_left fun h => .inr (.inr h)

theorem serversGone_knows {gone : List Nat} {st : Forwarder} {p : Nat} (h : (serversGone gone st).1.Knows p) :
    st.Knows p ∧ p ∉ gone := by
  suffices hfold : ∀ acc : Forwarder × List Output, (gone.foldl (fun acc p =>
      ((forwarderGone p acc.1).1, acc.2 ++ (forwarderGone p acc.1).2)) acc).1.Knows p → acc.1.Knows p ∧ p ∉ gone from
    hfold _ h
  clear h
  induction gone with
  | nil => exact fun acc h => ⟨h, List.not_mem_nil⟩
  | cons p₁ gone ih =>
    intro acc h
    obtain ⟨hknows, hrest⟩ := ih _ h
    obtain ⟨hknows, hne⟩ := forwarderGone_knows hknows
    exact ⟨hknows, fun hmem => (List.mem_cons.mp hmem).elim hne hrest⟩

theorem forwarderGone_serverGone {κ : Type} {d : Daemon κ} {st : Forwarder}
    (hfrecs : d.frecs = st.frecs.map Frec.sentto) (hlast : d.lastServer = st.lastServer)
    (hsaved : d.srvSave = st.srvSave) (p : Nat) :
    (serverGone p d).frecs = (forwarderGone p st).1.frecs.map Frec.sentto ∧
      (serverGone p d).lastServer = (forwarderGone p st).1.lastServer ∧
        (serverGone p d).srvSave = (forwarderGone p st).1.srvSave := by
  refine ⟨?_, by rw [serverGone, hlast]; rfl, by rw [serverGone, hsaved]; rfl⟩
  rw [forwarderGone_frecs, List.map_map, serverGone, hfrecs, List.map_map]
  refine List.map_congr_left fun f _ => ?_
  rw [Function.comp_apply, Function.comp_apply, Frec.goneFrom]
  split <;> rfl

end Gone

section Run

/-- Whenever the servers change, `server_gone` is called for those that leave. -/
def LeaveGone (nodes : List Nat) : List ForwardEvent → Prop
  | [] => True
  | .servers gone new :: es => (∀ p ∈ nodes, p ∉ gone → p ∈ ids new) ∧ LeaveGone (ids new) es
  | _ :: es => LeaveGone nodes es

variable {nodes : List Nat} {st : Forwarder}

theorem servers_points (h : st.Points nodes) {gone : List Nat} {new : List ServerNode}
    (hleave : ∀ p ∈ nodes, p ∉ gone → p ∈ ids new) :
    Forwarder.Points (ids new) { (serversGone gone st).1 with servers := new } := by
  have hknown (p : Nat) (hp : (serversGone gone st).1.Knows p) : p ∈ ids new := by
    obtain ⟨hknows, hgone⟩ := serversGone_knows hp
    refine hleave p ?_ hgone
    rcases hknows with ⟨f, hf, hsent⟩ | hlast | hsaved
    · exact h.sentto f hf p hsent
    · exact h.last p hlast
    · exact h.saved p hsaved
  exact ⟨fun f hf p hp => hknown p (.inl ⟨f, hf, hp⟩), fun p hp => hknown p (.inr (.inl hp)),
    fun p hp => hknown p (.inr (.inr hp)), rfl⟩

/-- In every run in which `server_gone` is called for the servers that leave, the forwarder never follows a pointer to
a server that is gone, and all pointers lead to servers that there are. -/
theorem run_sound {es : List ForwardEvent} (h : st.Points nodes) (hleave : LeaveGone nodes es) :
    Sound (st.run es) fun left => ∃ nodes', left.1.Points nodes' := by
  induction es generalizing st nodes with
  | nil => exact .ok ⟨nodes, h⟩
  | cons e es ih =>
    have hstart : Forwarder.Points nodes { st with srvSave := none } := ⟨h.sentto, h.last, nofun, h.servers⟩
    rw [Forwarder.run]
    cases e with
    | query now w q =>
      have hnone : ∀ place ∈ (none : Option Nat), InUseAt st.frecs place := fun _ hp => by cases hp
      exact .bind (.map (forwardQuery_sound hstart hnone)) fun next hnext => .map (ih hnext hleave)
    | reply now w d => exact .bind (replyQuery_sound h d) fun next hnext => .map (ih hnext hleave)
    | wait now w => exact .bind (.ok (getNewFrec_points h w now true)) fun next hnext => .map (ih hnext hleave)
    | servers gone new =>
      exact .bind (.ok (servers_points h hleave.1)) fun next hnext => .map (ih hnext hleave.2)

/-- The server goes while a query waits for its reply, and a packet comes from it afterwards. -/
theorem run_sound_gone :
    Sound (oneServer.run (twoQueries ++ [.servers [1] [], .reply 1 (goodOutside 6) oneReply]))
      fun left => ∃ nodes', left.1.Points nodes' :=
  @run_sound [1] oneServer _ ⟨nofun, nofun, nofun, rfl⟩
    ⟨fun _ hp hgone => absurd hp hgone, trivial⟩

end Run

end G361FPlatform.Dnsmasq
