import G361FPlatform.Dnsmasq.FrecLaws
import G361FPlatform.Dnsmasq.RecordLaws

namespace G361FPlatform.Dnsmasq

open Library

section Packets

variable (header : Packet)

theorem write_mem_of_lt {p i : Nat} (h : i < p) (bs : List UInt8) : (header.write p bs).mem i = header.mem i :=
  if_neg (by omega)

@[simp] theorem write_plen (p : Nat) (bs : List UInt8) : (header.write p bs).plen = header.plen := rfl

theorem id_congr {header header' : Packet} (h : ∀ i < 2, header.mem i = header'.mem i) : header.id = header'.id := by
  simp only [Packet.id, Packet.getShort, h 0 (by omega), h 1 (by omega)]

theorem id_write {p : Nat} (hp : 2 ≤ p) (bs : List UInt8) : (header.write p bs).id = header.id :=
  id_congr fun i hi => write_mem_of_lt header (by omega) bs

@[simp] theorem id_setHb3 (b : UInt8) : (header.setHb3 b).id = header.id := id_write header (by omega) _

@[simp] theorem id_setHb4 (b : UInt8) : (header.setHb4 b).id = header.id := id_write header (by omega) _

@[simp] theorem id_clearAd : header.clearAd.id = header.id := id_setHb4 header _

@[simp] theorem id_setRcode (code : UInt8) : (header.setRcode code).id = header.id := id_setHb4 header _

@[simp] theorem id_setId (id : UInt16) : (header.setId id).id = id := by
  refine getShort_of_putShort ?_
  simp [Packet.bytes, Packet.setId, Packet.write, putShort, List.range_succ]

theorem checked_eq {header : Packet} {p len q : Nat}
    (h : (if ¬header.checkLen p len then none else some p) = some q) : p = q := by
  split at h
  · cases h
  · exact Option.some.inj h

theorem skipName_lt (header : Packet) {ansp extrabytes q : Nat} (h : skipName header ansp extrabytes = some q) :
    ansp < q := by
  fun_induction skipName header ansp extrabytes with
  | case2 | case8 =>
    have heq := checked_eq h
    omega
  | case6 | case9 =>
    rename_i ih
    have hlt := ih h
    omega
  | _ => cases h

theorem skipQuestionsFrom_le {header : Packet} (n : Nat) {ansp q : Nat} (h : skipQuestionsFrom header n ansp = some q) :
    ansp ≤ q := by
  induction n generalizing ansp with
  | zero => exact Nat.le_of_eq (Option.some.inj h)
  | succ n ih =>
    obtain ⟨p, hp, hrest⟩ := Option.bind_eq_some_iff.mp h
    have hlt := skipName_lt header hp
    have hle := ih hrest
    omega

theorem id_knownAddress {p : Nat} (hp : 2 ≤ p) (addrp : Option MySockaddr) (type : UInt16) (ttl : UInt32) :
    (knownAddress header p addrp type ttl).id = header.id := by
  have hwrite (header : Packet) (bs : List UInt8) (n : Nat) : (⟨(header.write p bs).mem, n⟩ : Packet).id = header.id :=
    id_congr fun i hi => write_mem_of_lt header (by omega) bs
  rw [knownAddress, hwrite, id_setHb3, id_write _ (by omega), id_setRcode]

theorem id_setupReply {reply : Packet} {addrp : Option MySockaddr} {flags ttl : UInt32}
    (h : setupReply header addrp flags ttl = some reply) : reply.id = header.id := by
  obtain ⟨p, hp, rfl⟩ := Option.map_eq_some_iff.mp h
  have hle : 2 ≤ p := le_trans (by decide) (skipQuestionsFrom_le _ hp)
  have hbase (h : Packet) (n : Nat) (bs : List UInt8) : (⟨(h.write 6 bs).mem, n⟩ : Packet).id = h.id :=
    id_congr fun i hi => write_mem_of_lt h (by omega) bs
  dsimp only
  split_ifs <;> simp only [id_setRcode, id_knownAddress _ hle, hbase, id_setHb4, id_setHb3]

end Packets

section Answers

def Output.client : Output → Option Client
  | answer fd dst source iface packet => some ⟨fd, dst, source, iface, packet.id⟩
  | _ => none

def answers (out : List Output) : List Client := out.filterMap Output.client

@[simp] theorem answers_nil : answers [] = [] := rfl

@[simp] theorem answers_append (out out' : List Output) : answers (out ++ out') = answers out ++ answers out' :=
  List.filterMap_append

theorem answers_dropRfd (rfd : Option RandfdId) (socks : RandomSocks) : answers (dropRfd rfd socks).2 = [] := by
  cases rfd with
  | none => rfl
  | some i =>
    dsimp only [dropRfd]
    split <;> rfl

@[simp] theorem answers_freeFrec (f : Frec) (socks : RandomSocks) : answers (freeFrec f socks).2.2 = [] := by
  simp [freeFrec, answers_dropRfd]

theorem answers_allocateRfd (w : Outside) (family : Family) (socks : RandomSocks) :
    answers (allocateRfd w family socks).2.2 = [] := by
  unfold allocateRfd
  dsimp only
  split <;> split <;> (try split) <;> rfl

theorem answers_scanFrecs (now : Int) (i : Nat) (fs : List Frec) (scan : FrecScan) (h : answers scan.out = []) :
    answers (scanFrecs now i fs scan).out = [] := by
  induction fs generalizing i scan with
  | nil => exact h
  | cons f fs ih =>
    rw [scanFrecs]
    split
    · exact ih _ _ h
    · dsimp only
      split
      · exact ih _ _ (by simp [h])
      · exact ih _ _ h

@[simp] theorem answers_getNewFrec (w : Outside) (ftabsize : Nat) (now : Int) (wait : Bool) (frecs : List Frec)
    (socks : RandomSocks) : answers (getNewFrec w ftabsize now wait frecs socks).out = [] := by
  have hscan := answers_scanFrecs now 0 frecs ⟨[], socks, none, none, []⟩ rfl
  have hcases := getNewFrec_cases w ftabsize now wait frecs socks
  generalize getNewFrec w ftabsize now wait frecs socks = new at hcases ⊢
  cases hcases with
  | steal => simp [hscan]
  | _ => exact hscan

theorem answers_localReply (opts : Options) (q : Query) (header : Packet) (addrp : Option MySockaddr) (flags : UInt32) :
    answers (localReply opts q header addrp flags) = [] ∨ q.udpfd ≠ -1 ∧
      answers (localReply opts q header addrp flags) = [⟨q.udpfd, q.udpaddr, q.dstAddr, q.dstIface, header.id⟩] := by
  unfold localReply
  split
  next hfd =>
    split
    next reply hreply =>
      refine .inr ⟨hfd, ?_⟩
      rw [← id_setupReply header hreply]
      rfl
    next => exact .inl rfl
  next => exact .inl rfl

end Answers

section Forwarding

structure SendKeeps (s s' : Forwarding) : Prop where
  ticket : s'.frec.ticket = s.frec.ticket
  silent : answers s.out = [] → answers s'.out = []
  inUse : (s.forwarded = true → s.frec.inUse = true) → s'.forwarded = true → s'.frec.inUse = true

theorem SendKeeps.refl (s : Forwarding) : SendKeeps s s := ⟨rfl, id, id⟩

theorem SendKeeps.trans {s s' s'' : Forwarding} (h : SendKeeps s s') (h' : SendKeeps s' s'') : SendKeeps s s'' :=
  ⟨h'.ticket.trans h.ticket, fun ho => h'.silent (h.silent ho), fun hs => h'.inUse (h.inUse hs)⟩

variable {w : Outside}

theorem pickSocket_keeps {serv : Server} {s s' : Forwarding} {fd : Int} (h : pickSocket w serv s = some (fd, s')) :
    SendKeeps s s' := by
  have h4 := answers_allocateRfd w .inet s.socks
  have h6 := answers_allocateRfd w .inet6 s.socks
  unfold pickSocket at h
  split at h
  · cases h
    exact .refl s
  · split at h <;> split at h
    · cases h
      exact ⟨rfl, id, id⟩
    · split at h
      next i socks out heq =>
        cases h
        rw [heq] at h6
        exact ⟨rfl, fun ho => by simpa [ho] using h6, id⟩
      next => cases h
    · cases h
      exact ⟨rfl, id, id⟩
    · split at h
      next i socks out heq =>
        cases h
        rw [heq] at h4
        exact ⟨rfl, fun ho => by simpa [ho] using h4, id⟩
      next => cases h

theorem sent_keeps (s : Forwarding) (p : Nat) (fd : Int) (packet : Packet) : SendKeeps s (s.sent p fd packet) :=
  ⟨rfl, fun ho => by simp [Forwarding.sent, ho]; rfl, fun _ _ => rfl⟩

theorem count_keeps (s : Forwarding) :
    SendKeeps s { s with frec := { s.frec with forwardall := s.frec.forwardall + 1 } } :=
  ⟨rfl, id, id⟩

theorem sendLoop_keeps (type : UInt32) (domain : Option CString) (packet : Packet) (circle : List ServerNode)
    (s : Forwarding) : SendKeeps s (sendLoop w type domain packet circle s) := by
  induction circle generalizing s with
  | nil => exact .refl s
  | cons node circle ih =>
    rw [sendLoop]
    split
    next =>
      split
      next => exact .refl s
      next fd s' hpick =>
        have hkeeps := pickSocket_keeps hpick
        have hsent := hkeeps.trans (sent_keeps s' node.1 fd packet)
        split
        next =>
          dsimp only
          split
          next => exact hsent
          next => exact hsent.trans ((count_keeps _).trans (ih _))
        next => exact hkeeps.trans (ih s')
    next => exact ih s

inductive Attempted (q : Query) (a : Attempt) (st : Forwarder) : Bool × Forwarder × List Output → Prop
  | forwarded (st' : Forwarder) (out : List Output) (g : Frec) (hg : g.inUse = true)
      (hticket : g.ticket = a.frec.ticket) (hfrecs : st'.frecs = st.frecs.set a.place g) (hout : answers out = []) :
      Attempted q a st (true, st', out)
  | failed (st' : Forwarder) (out : List Output) (g : Frec) (hg : g.inUse = false)
      (hfrecs : st'.frecs = st.frecs.set a.place g)
      (hout : answers out = [] ∨ q.udpfd ≠ -1 ∧
        answers out = [⟨q.udpfd, q.udpaddr, q.dstAddr, q.dstIface, a.frec.origId⟩]) :
      Attempted q a st (false, st', out)

theorem sendAttempt_attempted (w : Outside) (q : Query) (header : Packet) (addrp : Option MySockaddr) (a : Attempt)
    (st : Forwarder) : Attempted q a st (sendAttempt w q header addrp a st) := by
  unfold sendAttempt
  generalize withMac w st.opts q (header.setId a.frec.newId) = packet
  dsimp only
  have hkeeps := sendLoop_keeps (w := w) a.type a.domain packet a.circle
    ⟨a.frec, st.servers, st.socks, st.srvSave, st.rfdSave, false, []⟩
  generalize sendLoop w a.type a.domain packet a.circle
    ⟨a.frec, st.servers, st.socks, st.srvSave, st.rfdSave, false, []⟩ = s at hkeeps ⊢
  have hsilent := hkeeps.silent rfl
  have horig : s.frec.origId = a.frec.origId := congrArg (·.client.id) hkeeps.ticket
  split
  next hforwarded =>
    exact .forwarded _ _ s.frec (hkeeps.inUse nofun hforwarded) hkeeps.ticket rfl hsilent
  next =>
    refine .failed _ _ s.frec.freed rfl rfl ?_
    rcases answers_localReply st.opts q (packet.setId s.frec.origId) addrp 0 with h | ⟨hfd, h⟩
    · exact .inl (by simp [hsilent, h])
    · refine .inr ⟨hfd, ?_⟩
      rw [answers_append, answers_append, hsilent, answers_freeFrec, h, id_setId, horig]
      rfl

end Forwarding

section Relays

open Tickets

/-- The table goes from one to the other like a relay of requests that `asked` ask and that answers `answered`, which
passes on tickets that are `P` only and takes replies to tickets that are `R` only. -/
def Relays (P R : Ticket Client (UInt32 × UInt16) → Prop) (frecs frecs' : List Frec) (asked answered : List Client) :
    Prop :=
  ∃ ms, Run (tickets frecs) ms (tickets frecs') ∧ ms.filterMap Move.asks = asked ∧
    ms.filterMap Move.answers = answered ∧ (∀ t, .pass t ∈ ms → P t) ∧ ∀ t, .reply t ∈ ms → R t

variable {frecs frecs' frecs'' : List Frec} {asked answered asked' answered' : List Client}
  {P R : Ticket Client (UInt32 × UInt16) → Prop}

theorem Relays.trans (h : Relays P R frecs frecs' asked answered) (h' : Relays P R frecs' frecs'' asked' answered') :
    Relays P R frecs frecs'' (asked ++ asked') (answered ++ answered') := by
  obtain ⟨ms, hrun, rfl, rfl, hP, hR⟩ := h
  obtain ⟨ms', hrun', rfl, rfl, hP', hR'⟩ := h'
  refine ⟨ms ++ ms', hrun.append hrun', List.filterMap_append, List.filterMap_append, fun t ht => ?_, fun t ht => ?_⟩
  · exact (List.mem_append.mp ht).elim (hP t) (hP' t)
  · exact (List.mem_append.mp ht).elim (hR t) (hR' t)

theorem Relays.imp {P' R' : Ticket Client (UInt32 × UInt16) → Prop} (h : Relays P R frecs frecs' asked answered)
    (hP : ∀ t, P t → P' t) (hR : ∀ t, R t → R' t) : Relays P' R' frecs frecs' asked answered := by
  obtain ⟨ms, hrun, hasked, hanswered, hpass, hreply⟩ := h
  exact ⟨ms, hrun, hasked, hanswered, fun t ht => hP t (hpass t ht), fun t ht => hR t (hreply t ht)⟩

theorem Relays.of_le (h : tickets frecs' ≤ tickets frecs) : Relays P R frecs frecs' [] [] := by
  obtain ⟨ts, hrun⟩ := Run.loses h
  refine ⟨_, hrun, ?_, ?_, fun t ht => ?_, fun t ht => ?_⟩
  · simp [List.filterMap_map, Function.comp_def, Move.asks]
  · simp [List.filterMap_map, Function.comp_def, Move.answers]
  · simp at ht
  · simp at ht

theorem Relays.settle (h : tickets frecs' = tickets frecs) {c : Client} {out : List Output}
    (hout : answers out = [] ∨ answers out = [c]) : Relays P R frecs frecs' [c] (answers out) := by
  rcases hout with hout | hout
  · exact ⟨[.settle c false], by rw [h]; exact .single (.settle c false), rfl, by rw [hout]; rfl, by simp, by simp⟩
  · exact ⟨[.settle c true], by rw [h]; exact .single (.settle c true), rfl, by rw [hout]; rfl, by simp, by simp⟩

theorem Relays.pass {t : Ticket Client (UInt32 × UInt16)} (h : tickets frecs' = t ::ₘ tickets frecs)
    (hnew : ∀ u ∈ tickets frecs, u.wire ≠ t.wire) (ht : P t) : Relays P R frecs frecs' [t.client] [] :=
  ⟨[.pass t], by rw [h]; exact .single (.pass t hnew), rfl, rfl, by simpa using ht, by simp⟩

theorem Relays.reply {t : Ticket Client (UInt32 × UInt16)} (h : tickets frecs = t ::ₘ tickets frecs') (ht : R t) :
    Relays P R frecs frecs' [] [t.client] :=
  ⟨[.reply t], by rw [h]; exact .single (.reply t), rfl, rfl, by simp, by simpa using ht⟩

/-- `get_id` gives a name that no request has. -/
theorem getId_fresh {crc : UInt32} {rand : List UInt16} {id : UInt16} (h : getId frecs crc rand = .ok id) :
    ∀ u ∈ tickets frecs, u.wire ≠ (crc, id) := by
  induction rand with
  | nil => cases h
  | cons ret rand ih =>
    rw [getId] at h
    split at h
    next => exact ih h
    next hnone =>
      obtain rfl : ret = id := Except.ok.inj h
      intro u hu heq
      obtain ⟨f, hf, huse, rfl⟩ := mem_tickets.mp hu
      simp only [lookupFrec, Bool.not_eq_true, Option.isSome_eq_false_iff, Option.isNone_iff_eq_none,
        List.findIdx?_eq_none_iff] at hnone
      have hno := hnone f hf
      simp only [Frec.ticket, Prod.mk.injEq] at heq
      simp [heq.1, heq.2, Frec.inUse] at hno huse
      simp [hno] at huse

theorem retry_relays {st st₁ : Forwarder} {place : Nat} {f : Frec} {a : Attempt} (hk : st.frecs[place]? = some f)
    (hf : f.inUse = true) (h : retryAttempt st place f = .ok (a, st₁)) {q : Query}
    {next : Bool × Forwarder × List Output}
    (hsend : Attempted q a st₁ next) :
    Relays P R st.frecs next.2.1.frecs [] [] ∧ (answers next.2.2 = [] ∨ q.udpfd ≠ -1 ∧
      answers next.2.2 = [⟨q.udpfd, q.udpaddr, q.dstAddr, q.dstIface, f.origId⟩]) := by
  obtain ⟨p, serv, -, -, -, hplace, hfrec, rfl⟩ := retryAttempt_spec h
  have hticket : a.frec.ticket = f.ticket := by rw [hfrec]; rfl
  cases hsend with
  | forwarded st' out g hg hgt hfrecs hout =>
    refine ⟨.of_le ?_, .inl hout⟩
    rw [hfrecs, hplace, tickets_set_of_ticket hk (hf.trans hg.symm) fun _ => (hgt.trans hticket).symm]
  | failed st' out g hg hfrecs hout =>
    refine ⟨.of_le ?_, ?_⟩
    · rw [hfrecs, hplace]
      exact tickets_set_free_le hg
    · have horig : a.frec.origId = f.origId := congrArg (·.client.id) hticket
      rwa [horig] at hout

theorem lookupFrecBySender_spec {id : UInt16} {addr : MySockaddr} {crc : UInt32} {k : Nat}
    (h : lookupFrecBySender frecs id addr crc = some k) :
    ∃ f, frecs[k]? = some f ∧ f.inUse = true ∧ f.origId = id ∧ f.crc = crc := by
  obtain ⟨hlt, hp, -⟩ := List.findIdx?_eq_some_iff_getElem.mp h
  simp only [decide_eq_true_eq] at hp
  exact ⟨_, List.getElem?_eq_getElem hlt, hp.1, hp.2.1, hp.2.2.1⟩

theorem lookupFrec_spec {id : UInt16} {crc : UInt32} {k : Nat} (h : lookupFrec frecs id crc = some k) :
    ∃ f, frecs[k]? = some f ∧ f.inUse = true ∧ f.newId = id ∧ (f.crc = crc ∨ crc = 0xffffffff) := by
  obtain ⟨hlt, hp, -⟩ := List.findIdx?_eq_some_iff_getElem.mp h
  simp only [decide_eq_true_eq] at hp
  exact ⟨_, List.getElem?_eq_getElem hlt, hp.1, hp.2.1, hp.2.2⟩

variable {w : Outside} {now : Int} {q : Query} {st : Forwarder}
  {next : Bool × Forwarder × List Output}

theorem forwardQuery_again (st : Forwarder) {place : Nat} {f : Frec} (hk : st.frecs[place]? = some f)
    (hf : f.inUse = true) (hfd : q.udpfd = -1) (h : forwardQuery w now q (some place) st = .ok next) :
    Relays P R st.frecs next.2.1.frecs [] [] ∧ answers next.2.2 = [] := by
  cases forwardQuery_cases h with
  | settled addrp flags =>
    refine ⟨.of_le le_rfl, ?_⟩
    rw [localReply, if_neg (by simpa using hfd)]
    rfl
  | again place' f' a st₁ hplace hk' ha next hsend =>
    obtain rfl : place = place' := by simpa using hplace
    obtain rfl : f = f' := Option.some.inj (hk.symm.trans hk')
    have hattempted : Attempted q a st₁ next := hsend ▸ sendAttempt_attempted w q _ none a st₁
    have hretry := retry_relays (P := P) (R := R) hk hf ha hattempted
    exact ⟨hretry.1, hretry.2.resolve_right fun hans => hans.1 hfd⟩
  | full new hnew addrp hforward => cases hforward
  | new new hnew search place' f' newId circle all st₁ hforward => cases hforward

/-- What a query of a client is passed on as. -/
def Query.Passes (q : Query) (t : Ticket Client (UInt32 × UInt16)) : Prop :=
  t.client = q.client ∧ t.wire.1 = questionsCrc q.header

theorem forwardQuery_relays (st : Forwarder) (h : forwardQuery w now q none st = .ok next) :
    Relays q.Passes R st.frecs next.2.1.frecs [q.client] (answers next.2.2) := by
  have hlocal (opts : Options) (addrp : Option MySockaddr) (flags : UInt32) :
      answers (localReply opts q q.header.clearAd addrp flags) = [] ∨
        answers (localReply opts q q.header.clearAd addrp flags) = [q.client] := by
    have hans := answers_localReply opts q q.header.clearAd addrp flags
    rw [id_clearAd] at hans
    exact hans.imp_right (·.2)
  have hworn (new : NewFrec) (hnew : new = getNewFrec w st.opts.ftabsize now false st.frecs st.socks) :
      Relays q.Passes R st.frecs new.frecs [] [] := hnew ▸ .of_le (getNewFrec_tickets _ _ _ _ _ _)
  have hout (new : NewFrec) (hnew : new = getNewFrec w st.opts.ftabsize now false st.frecs st.socks) :
      answers new.out = [] := hnew ▸ answers_getNewFrec _ _ _ _ _ _
  cases forwardQuery_cases h with
  | settled addrp flags => exact .settle rfl (hlocal _ _ _)
  | again place f a st₁ hplace hk ha next hsend =>
    obtain ⟨f', hk', hf, hid, -⟩ := lookupFrecBySender_spec (Option.none_or ▸ hplace)
    obtain rfl : f = f' := Option.some.inj (hk.symm.trans hk')
    have hattempted : Attempted q a st₁ next := hsend ▸ sendAttempt_attempted w q _ none a st₁
    have hretry := retry_relays (P := q.Passes) (R := R) hk hf ha hattempted
    rw [hid, id_clearAd] at hretry
    exact hretry.1.trans (.settle rfl (hretry.2.imp_right (·.2)))
  | full new hnew addrp =>
    refine (hworn new hnew).trans (.settle rfl ?_)
    rw [answers_append, hout new hnew]
    exact hlocal _ _ _
  | new new hnew search place f newId circle all st₁ hforward hfound hk hid hstart next hsend =>
    have hgood := (scanFrecs_spec now st.frecs st.socks).good
      (getNewFrec_cases w st.opts.ftabsize now false st.frecs st.socks)
    obtain ⟨f', hk', hf, -⟩ := (hnew ▸ hgood).found rfl place hfound
    obtain rfl : f = f' := Option.some.inj (hk.symm.trans hk')
    have hstarted : st₁.frecs = new.frecs := by rw [(startNew_spec hstart).1]
    have hattempted := sendAttempt_attempted w q q.header.clearAd search.addr
      ⟨place, newRecord { q with header := q.header.clearAd } (questionsCrc q.header) newId search.norebind all f,
        search.type, search.domain, circle⟩ st₁
    rw [← hsend] at hattempted
    suffices hsent : Relays q.Passes R new.frecs next.2.1.frecs [q.client] (answers next.2.2) by
      rw [answers_append, hout new hnew]
      exact (hworn new hnew).trans hsent
    cases hattempted with
    | forwarded st' out g hg hticket hfrecs hsilent =>
      have hclient : g.ticket.client = q.client := by
        rw [hticket]
        show (⟨_, _, _, _, q.header.clearAd.id⟩ : Client) = _
        rw [id_clearAd]
        rfl
      have hpass : Relays q.Passes R new.frecs st'.frecs [g.ticket.client] [] := by
        refine .pass ?_ (fun u hu => ?_) ⟨hclient, congrArg (·.wire.1) hticket⟩
        · rw [hfrecs, hstarted, tickets_set_of_free hk hf hg]
        · rw [hticket]
          exact getId_fresh hid u hu
      rw [← hclient, hsilent]
      exact hpass
    | failed st' out g hg hfrecs hans =>
      refine .settle ?_ ?_
      · rw [hfrecs, hstarted]
        exact tickets_set_of_ticket hk (hf.trans hg.symm) fun huse => by cases hf.symm.trans huse
      · refine hans.imp_right fun hans => hans.2.trans ?_
        show [(⟨_, _, _, _, q.header.clearAd.id⟩ : Client)] = _
        rw [id_clearAd]
        rfl

/-- Whether a reply may be one to a request: they have the same id, and the same questions as far as those of the
reply are known. -/
def Datagram.Fits (d : Datagram) (t : Ticket Client (UInt32 × UInt16)) : Prop :=
  t.wire.2 = d.header.id ∧ (t.wire.1 = questionsCrc d.header ∨ questionsCrc d.header = 0xffffffff)

theorem finishReply_relays (w : Outside) (d : Datagram) (server : Option Nat) {place : Nat} {f : Frec}
    (hk : st.frecs[place]? = some f) (hf : f.inUse = true) (hR : R f.ticket) :
    Relays P R st.frecs (finishReply w d server place f st).1.frecs []
      (answers (finishReply w d server place f st).2) := by
  have hcases := finishReply_cases w d server place f st
  generalize finishReply w d server place f st = next at hcases ⊢
  cases hcases with
  | done g hg answer hanswer =>
    have hfree : (freeFrec g st.socks).1.inUse = false := rfl
    rw [answers_append, answers_freeFrec, List.append_nil]
    rcases hanswer with rfl | ⟨header, rfl⟩
    · exact .of_le (tickets_set_free_le hfree)
    · have hclient : answers [.answer f.fd f.source f.dest f.iface
          ((header.setId f.origId).setHb4 (header.hb4 ||| 0x80))] = [f.ticket.client] := by
        simp [answers, Output.client, Frec.ticket, Frec.client]
      rw [hclient]
      exact .reply (tickets_set_free hk hf hfree) hR
  | kept => exact .of_le (tickets_set_of_ticket hk (g := { f with forwardall := f.forwardall - 1 }) rfl fun _ => rfl).le

theorem replyQuery_relays {d : Datagram} {next : Forwarder × List Output}
    (h : replyQuery w now d st = .ok next) : Relays P d.Fits st.frecs next.1.frecs [] (answers next.2) := by
  cases replyQuery_cases h with
  | ignored => exact .of_le le_rfl
  | again place f header _ hplace hk sent hsent =>
    obtain ⟨f', hk', hf, -⟩ := lookupFrec_spec hplace
    obtain rfl : f = f' := Option.some.inj (hk.symm.trans hk')
    obtain ⟨hrelay, hsilent⟩ := forwardQuery_again (P := P) (R := d.Fits) { st with srvSave := none } hk hf rfl hsent
    rw [hsilent]
    exact hrelay
  | finished place f p serv _ hplace hk hp hserv next hnext =>
    obtain ⟨f', hk', hf, hid, hcrc⟩ := lookupFrec_spec hplace
    obtain rfl : f = f' := Option.some.inj (hk.symm.trans hk')
    have hstart := (replyServer_spec st.opts d serv p { st with srvSave := none }).1
    have hfrecs : (replyServer st.opts d serv p { st with srvSave := none }).2.frecs = st.frecs := by rw [hstart]
    have hfits : d.Fits f.ticket := ⟨hid, hcrc⟩
    have hrelay := finishReply_relays (P := P) w d (replyServer st.opts d serv p { st with srvSave := none }).1
      (hfrecs ▸ hk) hf hfits
    rw [hfrecs, ← hnext] at hrelay
    exact hrelay

theorem tickets_goneFrom_le (p : Nat) : tickets (frecs.map (Frec.goneFrom p)) ≤ tickets frecs := by
  induction frecs with
  | nil => exact le_rfl
  | cons f frecs ih =>
    rw [List.map_cons, Frec.goneFrom]
    split
    next =>
      rw [tickets_cons_of_free (freed_inUse f)]
      exact ih.trans tickets_cons_le
    next =>
      cases hf : f.inUse with
      | false => rwa [tickets_cons_of_free hf, tickets_cons_of_free hf]
      | true =>
        rw [tickets_cons_of_inUse hf, tickets_cons_of_inUse hf]
        exact Multiset.cons_le_cons _ ih

theorem answers_goneFrecs (p : Nat) (fs : List Frec) (socks : RandomSocks) :
    answers (goneFrecs p fs socks).2.2 = [] := by
  induction fs generalizing socks with
  | nil => rfl
  | cons f fs ih =>
    rw [goneFrecs]
    split <;> simp [ih]

theorem serversGone_relays (gone : List Nat) (st : Forwarder) :
    tickets (serversGone gone st).1.frecs ≤ tickets st.frecs ∧ answers (serversGone gone st).2 = [] := by
  refine serversGone_induct (motive := fun acc => tickets acc.1.frecs ≤ tickets st.frecs ∧ answers acc.2 = []) gone st
    ⟨le_rfl, rfl⟩ fun p acc hacc => ⟨?_, ?_⟩
  · rw [forwarderGone_frecs]
    exact (tickets_goneFrom_le p).trans hacc.1
  · rw [answers_append, hacc.2]
    exact answers_goneFrecs p acc.1.frecs acc.1.socks

end Relays

section Run

open Tickets

def ForwardEvent.asks : ForwardEvent → List Client
  | query _ _ q => [q.client]
  | _ => []

/-- The requests that an event can pass on. -/
def ForwardEvent.Passes : ForwardEvent → Ticket Client (UInt32 × UInt16) → Prop
  | query _ _ q, t => q.Passes t
  | _, _ => False

/-- The requests that an event can bring the reply to. -/
def ForwardEvent.Replies : ForwardEvent → Ticket Client (UInt32 × UInt16) → Prop
  | reply _ _ d, t => d.Fits t
  | _, _ => False

variable {st st' : Forwarder}

/-- A step of the forwarder is one of a relay of requests, which asks, and answers, whom the step does. -/
theorem step_relays {e : ForwardEvent} {next : Forwarder × List Output} (h : st.step e = .ok next) :
    Relays e.Passes e.Replies st.frecs next.1.frecs e.asks (answers next.2) := by
  cases e with
  | query now w q =>
    obtain ⟨sent, hsent, rfl⟩ := map_eq_ok h
    exact forwardQuery_relays { st with srvSave := none } hsent
  | reply now w d => exact replyQuery_relays h
  | wait now w =>
    cases h
    rw [answers_getNewFrec]
    exact .of_le (getNewFrec_tickets w st.opts.ftabsize now true st.frecs st.socks)
  | servers gone new =>
    cases h
    obtain ⟨hle, hsilent⟩ := serversGone_relays gone st
    rw [hsilent]
    exact .of_le hle

def Log.asks (log : Log) : List Client := log.flatMap fun entry => entry.1.asks

def Log.answers (log : Log) : List Client := log.flatMap fun entry => Dnsmasq.answers entry.2

def oneServer : Forwarder where
  opts := ⟨false, false, false, false, false, 150, 0⟩
  servers := [(1, ⟨.in4 53 8, .in4 0 0, [], some ⟨7, .in4 0 0, [], 0⟩, none, 0, 0, 0, 0⟩)]
  lastServer := none
  srvSave := none
  rfdSave := none
  frecs := []
  socks := ⟨fun _ => ⟨0, 0, .inet⟩, 0⟩
  forwardcount := 0
  forwardtime := 0

def plainMunge : Munge := ⟨fun header _ _ _ => some header, fun _ => none, fun _ => false, fun _ header => header⟩

def goodOutside (id : UInt16) : Outside := ⟨true, fun _ => some 20, fun _ => true, [id], plainMunge⟩

def headerPacket (id : UInt16) (hb3 : UInt8) : Packet := .ofBytes (putShort id ++ hb3 :: List.replicate 9 0)

def oneQuery : Query := ⟨4, .in4 1000 9, 0, 1, headerPacket 3 1⟩

def oneReply : Datagram := ⟨.in4 53 8, headerPacket 5 0x81⟩

def oneExchange : List ForwardEvent := [.query 0 (goodOutside 5) oneQuery, .reply 1 (goodOutside 6) oneReply]

theorem relays_of_run {P R : Ticket Client (UInt32 × UInt16) → Prop} {es : List ForwardEvent} {log : Log}
    (hP : ∀ e ∈ es, ∀ t, e.Passes t → P t) (hR : ∀ e ∈ es, ∀ t, e.Replies t → R t)
    (h : st.run es = .ok (st', log)) : Relays P R st.frecs st'.frecs log.asks log.answers := by
  induction es generalizing st log with
  | nil =>
    cases h
    exact .of_le le_rfl
  | cons e es ih =>
    obtain ⟨next, hstep, h⟩ := bind_eq_ok h
    obtain ⟨⟨st₁, log₁⟩, hrun, h⟩ := map_eq_ok h
    obtain ⟨rfl, rfl⟩ := Prod.mk.inj h
    refine Relays.trans ((step_relays hstep).imp (hP e List.mem_cons_self) (hR e List.mem_cons_self)) (ih ?_ ?_ hrun)
    · exact fun e' he' => hP e' (List.mem_cons_of_mem e he')
    · exact fun e' he' => hR e' (List.mem_cons_of_mem e he')

/-- Over any run the forwarder is a relay of requests. -/
theorem run_relays {es : List ForwardEvent} {log : Log} (h : st.run es = .ok (st', log)) :
    Relays (fun t => ∃ e ∈ es, e.Passes t) (fun t => ∃ e ∈ es, e.Replies t) st.frecs st'.frecs
      log.asks log.answers :=
  relays_of_run (fun e he _ ht => ⟨e, he, ht⟩) (fun e he _ ht => ⟨e, he, ht⟩) h

theorem run_relays_one : ∃ st' log, oneServer.run oneExchange = .ok (st', log) ∧
    Relays (fun t => ∃ e ∈ oneExchange, e.Passes t) (fun t => ∃ e ∈ oneExchange, e.Replies t) oneServer.frecs st'.frecs
      log.asks log.answers :=
  ⟨_, _, rfl, run_relays rfl⟩

/-- How many records a client has in use. -/
def pending (k : Client) (frecs : List Frec) : Nat := frecs.countP fun f => f.inUse ∧ f.client = k

theorem waiting_tickets (k : Client) (frecs : List Frec) : waiting k (tickets frecs) = pending k frecs := by
  simp only [waiting, tickets, pending, Multiset.coe_countP, List.countP_map, List.countP_filter]
  refine List.countP_congr fun f _ => ?_
  rw [Bool.and_eq_true, decide_eq_true_eq, and_comm]
  exact and_congr_right fun _ => decide_eq_true_iff

/-- No client gets more answers than it has sent queries, and what it may still get is counted in. -/
theorem run_answers_le {es : List ForwardEvent} {log : Log} (h : st.run es = .ok (st', log)) (k : Client) :
    log.answers.count k + pending k st'.frecs ≤ pending k st.frecs + log.asks.count k := by
  obtain ⟨ms, hrun, hasked, hanswered, -⟩ :=
    relays_of_run (P := fun _ => True) (R := fun _ => True) (fun _ _ _ _ => trivial) (fun _ _ _ _ => trivial) h
  have hfair := hrun.fair k
  rwa [asked, answered, hasked, hanswered, waiting_tickets, waiting_tickets] at hfair

theorem run_answers_le_one : ∃ st' log, oneServer.run oneExchange = .ok (st', log) ∧
    log.answers.count oneQuery.client + pending oneQuery.client st'.frecs ≤
      pending oneQuery.client oneServer.frecs + log.asks.count oneQuery.client :=
  ⟨_, _, rfl, @run_answers_le oneServer _ oneExchange _ rfl oneQuery.client⟩

theorem tickets_eq_zero {frecs : List Frec} (h : ∀ f ∈ frecs, f.inUse = false) : tickets frecs = 0 := by
  rw [tickets, List.filter_eq_nil_iff.mpr fun f hf => by simp [h f hf]]
  rfl

/-- The records that are in use have different names on the wire. -/
theorem run_names {es : List ForwardEvent} {log : Log} (h : st.run es = .ok (st', log))
    (h0 : ∀ f ∈ st.frecs, f.inUse = false) :
    (st'.frecs.filter Frec.inUse).Pairwise fun f g => (f.crc, f.newId) ≠ (g.crc, g.newId) := by
  obtain ⟨ms, hrun, -⟩ :=
    relays_of_run (P := fun _ => True) (R := fun _ => True) (fun _ _ _ _ => trivial) (fun _ _ _ _ => trivial) h
  have happart := hrun.apart (by rw [tickets_eq_zero h0]; exact Multiset.nodup_zero)
  rw [Apart, tickets, Multiset.map_coe, Multiset.coe_nodup, List.map_map, List.Nodup, List.pairwise_map] at happart
  exact happart

theorem oneServer_free : ∀ f ∈ oneServer.frecs, f.inUse = false := fun _ hf => (List.not_mem_nil hf).elim

def twoQueries : List ForwardEvent :=
  [.query 0 (goodOutside 5) oneQuery, .query 0 (goodOutside 6) { oneQuery with udpaddr := .in4 1001 9 }]

theorem run_names_two : ∃ st' log, oneServer.run twoQueries = .ok (st', log) ∧
    (st'.frecs.filter Frec.inUse).Pairwise fun f g => (f.crc, f.newId) ≠ (g.crc, g.newId) :=
  ⟨_, _, rfl, @run_names oneServer _ twoQueries _ rfl oneServer_free⟩

/-- Every answer that a reply brings is one to a query of the same client with the same questions, as far as the reply
says which, and the reply comes from a server. -/
theorem reply_answers {es : List ForwardEvent} {log : Log} (h : st.run es = .ok (st', log))
    (h0 : ∀ f ∈ st.frecs, f.inUse = false) {now : Int} {w : Outside} {d : Datagram} {next : Forwarder × List Output}
    (hreply : st'.step (.reply now w d) = .ok next) {k : Client} (hk : k ∈ answers next.2) :
    fromServer st'.servers d.serveraddr = true ∧ ∃ now' w' q, .query now' w' q ∈ es ∧ q.client = k ∧
      (questionsCrc q.header = questionsCrc d.header ∨ questionsCrc d.header = 0xffffffff) := by
  constructor
  · cases replyQuery_cases hreply with
    | ignored => cases hk
    | again place f header hserver => exact hserver
    | finished place f p serv hserver => exact hserver
  obtain ⟨ms, hrun, -, -, hpassed, -⟩ :=
    relays_of_run (P := fun t => ∃ e ∈ es, e.Passes t) (R := fun _ => True) (fun e he _ ht => ⟨e, he, ht⟩)
      (fun _ _ _ _ => trivial) h
  obtain ⟨ms', hrun', hasked', hanswered', -, hfits⟩ := step_relays hreply
  rw [← hanswered'] at hk
  obtain ⟨m, hm, hmk⟩ := List.mem_filterMap.mp hk
  have hquiet (m : Move Client (UInt32 × UInt16)) (hm : m ∈ ms') : m.asks = none := by
    have hnil : ms'.filterMap Move.asks = [] := hasked'
    exact List.filterMap_eq_nil_iff.mp hnil m hm
  cases m with
  | pass t => cases hquiet _ hm
  | settle c now => cases hquiet _ hm
  | lose t => cases hmk
  | reply t =>
    obtain rfl : t.client = k := Option.some.inj hmk
    rcases hrun'.reply_origin hm with hwaits | hpass
    · rcases hrun.origin hwaits with hstart | hpass
      · rw [tickets_eq_zero h0] at hstart
        cases Multiset.notMem_zero _ hstart
      · obtain ⟨e, he, hpass⟩ := hpassed t hpass
        cases e with
        | query now' w' q =>
          refine ⟨now', w', q, he, hpass.1.symm, ?_⟩
          rw [← hpass.2]
          exact (hfits t hm).2
        | _ => cases hpass
    · cases hquiet _ hpass

theorem reply_answers_one : ∃ st' log next, oneServer.run twoQueries = .ok (st', log) ∧
    st'.step (.reply 1 (goodOutside 6) oneReply) = .ok next ∧
      fromServer st'.servers oneReply.serveraddr = true ∧ ∃ now' w' q, .query now' w' q ∈ twoQueries ∧
        q.client = oneQuery.client ∧
          (questionsCrc q.header = questionsCrc oneReply.header ∨ questionsCrc oneReply.header = 0xffffffff) :=
  ⟨_, _, _, rfl, rfl,
    @reply_answers oneServer _ twoQueries _ rfl oneServer_free 1 (goodOutside 6) oneReply _ rfl
    oneQuery.client (by decide)⟩

end Run

end G361FPlatform.Dnsmasq
