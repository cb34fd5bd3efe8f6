import Mathlib.Algebra.GroupWithZero.Nat
import Mathlib.Algebra.BigOperators.Group.Finset.Basic
import Mathlib.Algebra.BigOperators.Pi
import Mathlib.Data.Fintype.BigOperators
import G361FPlatform.Dnsmasq.RelayLaws

namespace G361FPlatform.Dnsmasq

open Library

section Count

def Frec.holds (f : Frec) (i : RandfdId) : Nat := (if f.rfd4 = some i then 1 else 0) + if f.rfd6 = some i then 1 else 0

def heldBy (frecs : List Frec) (i : RandfdId) : Nat := (frecs.map (Frec.holds · i)).sum

@[simp] theorem heldBy_nil (i : RandfdId) : heldBy [] i = 0 := rfl

@[simp] theorem heldBy_cons (f : Frec) (frecs : List Frec) (i : RandfdId) :
    heldBy (f :: frecs) i = f.holds i + heldBy frecs i := rfl

@[simp] theorem heldBy_append (frecs frecs' : List Frec) (i : RandfdId) :
    heldBy (frecs ++ frecs') i = heldBy frecs i + heldBy frecs' i := by
  simp [heldBy]

theorem heldBy_set {frecs : List Frec} {k : Nat} {f : Frec} (hk : frecs[k]? = some f) (g : Frec) (i : RandfdId) :
    heldBy (frecs.set k g) i + f.holds i = heldBy frecs i + g.holds i := by
  induction frecs generalizing k with
  | nil => simp at hk
  | cons a frecs ih =>
    cases k with
    | zero =>
      obtain rfl : a = f := by simpa using hk
      rw [List.set_cons_zero, heldBy_cons, heldBy_cons]
      omega
    | succ k =>
      have htail := ih (k := k) (by simpa using hk)
      rw [List.set_cons_succ, heldBy_cons, heldBy_cons]
      omega

def Randfd.live (r : Randfd) (fd : Int) : Nat := if r.refcount ≠ 0 ∧ r.fd = fd then 1 else 0

def RandomSocks.live (socks : RandomSocks) (fd : Int) : Nat := ∑ i, (socks.sock i).live fd

theorem live_update (socks : RandomSocks) (i : RandfdId) (r : Randfd) (finger : Nat) (fd : Int) :
    (⟨Function.update socks.sock i r, finger⟩ : RandomSocks).live fd + (socks.sock i).live fd =
      socks.live fd + r.live fd := by
  have hcomp : (fun j => (Function.update socks.sock i r j).live fd) =
      Function.update (fun j => (socks.sock j).live fd) i (r.live fd) := by
    funext j
    by_cases hj : j = i
    · subst hj
      simp
    · simp [hj]
  have hsum := Finset.sum_update_of_mem (Finset.mem_univ i) (fun j => (socks.sock j).live fd) (r.live fd)
  have hsplit := Finset.add_sum_erase Finset.univ (fun j => (socks.sock j).live fd) (Finset.mem_univ i)
  rw [Finset.sdiff_singleton_eq_erase] at hsum
  simp only [RandomSocks.live, hcomp, hsum]
  omega

def Output.opens (fd : Int) : Output → Bool
  | opened fd' => fd' = fd
  | _ => false

def Output.closes (fd : Int) : Output → Bool
  | closed fd' => fd' = fd
  | _ => false

/-- The random sockets after some work that began with `socks₀`: `n` says how often each is held, and what has been
opened and not closed is open. -/
structure Ledger (socks₀ socks : RandomSocks) (out : List Output) (n : RandfdId → Nat) : Prop where
  held : ∀ i, (socks.sock i).refcount = n i
  cap : ∀ i, n i ≤ 0xffff
  balance : ∀ fd, out.countP (Output.opens fd) + socks₀.live fd = out.countP (Output.closes fd) + socks.live fd

end Count

section Ledger

variable {socks₀ socks : RandomSocks} {out : List Output} {n n' : RandfdId → Nat}

theorem Ledger.congr (h : Ledger socks₀ socks out n) (hn : ∀ i, n i = n' i) : Ledger socks₀ socks out n' :=
  (funext hn : n = n') ▸ h

theorem Ledger.quiet (h : Ledger socks₀ socks out n) (out' : List Output)
    (hout : ∀ o ∈ out', ∀ fd, o.opens fd = false ∧ o.closes fd = false) : Ledger socks₀ socks (out ++ out') n where
  held := h.held
  cap := h.cap
  balance fd := by
    have hopen : out'.countP (Output.opens fd) = 0 := List.countP_eq_zero.mpr fun o ho => by simp [(hout o ho fd).1]
    have hclose : out'.countP (Output.closes fd) = 0 := List.countP_eq_zero.mpr fun o ho => by simp [(hout o ho fd).2]
    rw [List.countP_append, List.countP_append, hopen, hclose]
    exact h.balance fd

theorem Ledger.update (h : Ledger socks₀ socks out n) (i : RandfdId) {r : Randfd} {finger : Nat} {out' : List Output}
    (hself : r.refcount = n' i) (hother : ∀ j, j ≠ i → n' j = n j) (hcap : r.refcount ≤ 0xffff)
    (hout : ∀ fd, out'.countP (Output.opens fd) + (socks.sock i).live fd = out'.countP (Output.closes fd) + r.live fd) :
    Ledger socks₀ ⟨Function.update socks.sock i r, finger⟩ (out ++ out') n' where
  held j := by
    by_cases hj : j = i
    · subst hj
      simp [hself]
    · simp [hj, h.held j, hother j hj]
  cap j := by
    by_cases hj : j = i
    · rw [hj, ← hself]
      exact hcap
    · rw [hother j hj]
      exact h.cap j
  balance fd := by
    have hlive := live_update socks i r finger fd
    have hbalance := h.balance fd
    have hnew := hout fd
    rw [List.countP_append, List.countP_append]
    omega

theorem Ledger.drop {rfd : Option RandfdId}
    (h : Ledger socks₀ socks out fun i => (if rfd = some i then 1 else 0) + n i) :
    Ledger socks₀ (dropRfd rfd socks).1 (out ++ (dropRfd rfd socks).2) n := by
  cases rfd with
  | none =>
    rw [dropRfd, List.append_nil]
    exact h.congr fun i => by simp
  | some i =>
    have hi := h.held i
    have hcap := h.cap i
    simp only [if_true] at hi hcap
    have hone : (socks.sock i).refcount - 1 = n i := by omega
    have hless : (socks.sock i).refcount - 1 ≤ 0xffff := by omega
    refine h.update i hone (fun j hj => by simp [hj.symm]) hless fun fd => ?_
    have hused : (socks.sock i).refcount ≠ 0 := by omega
    by_cases hlast : (socks.sock i).refcount - 1 = 0
    · simp [dropRfd, hlast, Output.opens, Output.closes, Randfd.live, hused]
    · simp [dropRfd, hlast, Randfd.live, hused]

theorem Ledger.free {f : Frec} (h : Ledger socks₀ socks out fun i => f.holds i + n i) :
    Ledger socks₀ (freeFrec f socks).2.1 (out ++ (freeFrec f socks).2.2) n := by
  have h4 : Ledger socks₀ (dropRfd f.rfd4 socks).1 (out ++ (dropRfd f.rfd4 socks).2) fun i =>
      (if f.rfd6 = some i then 1 else 0) + n i := .drop (h.congr fun i => by rw [Frec.holds, Nat.add_assoc])
  have h6 := h4.drop
  rwa [List.append_assoc] at h6

theorem Ledger.allocate (h : Ledger socks₀ socks out n) {w : Outside} {family : Family} {i : RandfdId}
    {socks' : RandomSocks} {out' : List Output} (ha : allocateRfd w family socks = (some i, socks', out')) :
    Ledger socks₀ socks' (out ++ out') fun j => (if some i = some j then 1 else 0) + n j := by
  have hgrab {r : RandfdId} (hr : (((List.range RANDOM_SOCKS).map fun k => socks.after k).find? fun j =>
      (socks.sock j).refcount ≠ 0 ∧ (socks.sock j).family = family ∧ (socks.sock j).refcount ≠ 0xffff) = some r) :
      Ledger socks₀ ⟨Function.update socks.sock r { socks.sock r with refcount := (socks.sock r).refcount + 1 }, r⟩
        (out ++ []) fun j => (if some r = some j then 1 else 0) + n j := by
    have hfound := List.find?_some hr
    simp only [decide_eq_true_eq] at hfound
    have hcap := h.cap r
    have hheld := h.held r
    have hmore : (socks.sock r).refcount + 1 ≤ 0xffff := by omega
    refine h.update r ?_ (fun j hj => by simp [hj.symm]) hmore fun fd => ?_
    · simp [hheld, Nat.add_comm]
    · simp [Randfd.live, hfound.1]
  unfold allocateRfd at ha
  dsimp only at ha
  split at ha
  next r hfree =>
    split at ha
    next fd hfd =>
      cases ha
      have hzero := List.find?_some hfree
      simp only [decide_eq_true_eq] at hzero
      have hone : 1 ≤ 0xffff := by decide
      refine h.update i ?_ (fun j hj => by simp [hj.symm]) hone fun fd' => ?_
      · simp [← h.held i, hzero]
      · by_cases hfd' : fd = fd' <;> simp [Output.opens, Output.closes, Randfd.live, hzero, hfd']
    next =>
      split at ha
      next r hr =>
        cases ha
        exact hgrab hr
      next => cases ha
  next =>
    split at ha
    next r hr =>
      cases ha
      exact hgrab hr
    next => cases ha

theorem freed_holds (f : Frec) (i : RandfdId) : f.freed.holds i = 0 := rfl

theorem Ledger.set_free {frecs : List Frec} {k : Nat} {f g : Frec} (h : Ledger socks₀ socks out (heldBy frecs))
    (hk : frecs[k]? = some f) (hg : g.holds = f.holds) :
    Ledger socks₀ (freeFrec g socks).2.1 (out ++ (freeFrec g socks).2.2)
      (heldBy (frecs.set k (freeFrec g socks).1)) := by
  refine .free (h.congr fun i => ?_)
  have hset := heldBy_set hk (freeFrec g socks).1 i
  rw [freeFrec_fst, freed_holds] at hset
  rw [freeFrec_fst, hg]
  omega

theorem Ledger.scan (now : Int) (fs : List Frec) (k : Nat) (scan : FrecScan)
    (h : Ledger socks₀ scan.socks (out ++ scan.out) fun i => heldBy scan.frecs i + heldBy fs i) :
    Ledger socks₀ (scanFrecs now k fs scan).socks (out ++ (scanFrecs now k fs scan).out)
      (heldBy (scanFrecs now k fs scan).frecs) := by
  induction fs generalizing k scan with
  | nil => exact h
  | cons f fs ih =>
    rw [scanFrecs]
    split
    next => exact ih _ _ (h.congr fun i => by simp [Nat.add_assoc])
    next =>
      dsimp only
      split
      next =>
        refine ih _ _ ?_
        rw [← List.append_assoc]
        refine .free (h.congr fun i => ?_)
        simp only [heldBy_cons, heldBy_append, heldBy_nil, freeFrec_fst, freed_holds]
        omega
      next => exact ih _ _ (h.congr fun i => by simp [Nat.add_assoc])

theorem Ledger.newFrec {frecs : List Frec} (h : Ledger socks₀ socks out (heldBy frecs)) (w : Outside) (ftabsize : Nat)
    (now : Int) (wait : Bool) :
    Ledger socks₀ (getNewFrec w ftabsize now wait frecs socks).socks
      (out ++ (getNewFrec w ftabsize now wait frecs socks).out)
      (heldBy (getNewFrec w ftabsize now wait frecs socks).frecs) := by
  have hstart : Ledger socks₀ socks (out ++ []) fun i => heldBy [] i + heldBy frecs i := by simpa using h
  have hscan := Ledger.scan now frecs 0 ⟨[], socks, none, none, []⟩ hstart
  have hspec := scanFrecs_spec now frecs socks
  have hcases := getNewFrec_cases w ftabsize now wait frecs socks
  generalize getNewFrec w ftabsize now wait frecs socks = new at hcases ⊢
  generalize scanFrecs now 0 frecs ⟨[], socks, none, none, []⟩ = scan at hscan hspec hcases
  cases hcases with
  | target k hk =>
    obtain ⟨f, hf, -⟩ := hspec.target k hk
    refine hscan.congr fun i => ?_
    have hset := heldBy_set hf (setTime now f) i
    rw [modify_eq_set hf]
    have hholds : (setTime now f).holds i = f.holds i := rfl
    dsimp only
    omega
  | allocate => exact hscan.congr fun i => (Nat.zero_add _).symm
  | look => exact hscan
  | steal k f _ _ hf =>
    rw [← List.append_assoc]
    have hfree := hscan.set_free hf rfl
    refine hfree.congr fun i => ?_
    have hset := heldBy_set hf (setTime now (freeFrec f scan.socks).1) i
    have hset' := heldBy_set hf (freeFrec f scan.socks).1 i
    have hholds : (setTime now (freeFrec f scan.socks).1).holds i = (freeFrec f scan.socks).1.holds i := rfl
    dsimp only
    omega
  | none => exact hscan

end Ledger

section Forwarding

variable {socks₀ : RandomSocks} {out : List Output} {n : RandfdId → Nat} {w : Outside}

def Forwarding.Balanced (socks₀ : RandomSocks) (out : List Output) (n : RandfdId → Nat) (s : Forwarding) : Prop :=
  Ledger socks₀ s.socks (out ++ s.out) fun i => s.frec.holds i + n i

theorem pickSocket_balanced {serv : Server} {s s' : Forwarding} {fd : Int} (h : s.Balanced socks₀ out n)
    (hpick : pickSocket w serv s = some (fd, s')) : s'.Balanced socks₀ out n := by
  unfold pickSocket at hpick
  split at hpick
  · cases hpick
    exact h
  · split at hpick <;> split at hpick
    · cases hpick
      exact h
    next hrfd =>
      split at hpick
      next i socks out' ha =>
        cases hpick
        have halloc := h.allocate ha
        rw [List.append_assoc] at halloc
        refine halloc.congr fun j => ?_
        simp only [Frec.holds, hrfd, reduceCtorEq, if_false]
        omega
      next => cases hpick
    · cases hpick
      exact h
    next hrfd =>
      split at hpick
      next i socks out' ha =>
        cases hpick
        have halloc := h.allocate ha
        rw [List.append_assoc] at halloc
        refine halloc.congr fun j => ?_
        simp only [Frec.holds, hrfd, reduceCtorEq, if_false]
        omega
      next => cases hpick

theorem sent_balanced {s : Forwarding} (h : s.Balanced socks₀ out n) (p : Nat) (fd : Int) (packet : Packet) :
    (s.sent p fd packet).Balanced socks₀ out n := by
  have hquiet := h.quiet [.query p fd packet] (by simp [Output.opens, Output.closes])
  rw [List.append_assoc] at hquiet
  exact hquiet

theorem sendLoop_balanced (type : UInt32) (domain : Option CString) (packet : Packet) (circle : List ServerNode)
    {s : Forwarding} (h : s.Balanced socks₀ out n) :
    (sendLoop w type domain packet circle s).Balanced socks₀ out n := by
  induction circle generalizing s with
  | nil => exact h
  | cons node circle ih =>
    rw [sendLoop]
    split
    next =>
      split
      next => exact h
      next fd s' hpick =>
        have hpicked := pickSocket_balanced h hpick
        split
        next =>
          have hsent := sent_balanced hpicked node.1 fd packet
          dsimp only
          split
          next => exact hsent
          next => exact ih hsent
        next => exact ih hpicked
    next => exact ih h

end Forwarding

section Run

variable {socks₀ : RandomSocks} {out : List Output}

def Forwarder.Balanced (socks₀ : RandomSocks) (out : List Output) (st : Forwarder) : Prop :=
  Ledger socks₀ st.socks out (heldBy st.frecs)

theorem localReply_quiet (opts : Options) (q : Query) (header : Packet) (addrp : Option MySockaddr) (flags : UInt32) :
    ∀ o ∈ localReply opts q header addrp flags, ∀ fd, o.opens fd = false ∧ o.closes fd = false := by
  unfold localReply
  intro o ho fd
  split at ho
  · split at ho
    · rw [List.mem_singleton.mp ho]
      exact ⟨rfl, rfl⟩
    · cases ho
  · cases ho

theorem sendAttempt_balanced (st : Forwarder) (h : st.Balanced socks₀ out) (w : Outside) (q : Query) (header : Packet)
    (addrp : Option MySockaddr) {a : Attempt} {f : Frec} (hk : st.frecs[a.place]? = some f)
    (hholds : a.frec.holds = f.holds) :
    (sendAttempt w q header addrp a st).2.1.Balanced socks₀ (out ++ (sendAttempt w q header addrp a st).2.2) := by
  -- what the other records hold
  have hset (g : Frec) (i : RandfdId) : heldBy (st.frecs.set a.place g) i =
      g.holds i + heldBy (st.frecs.set a.place f.freed) i := by
    have hg := heldBy_set hk g i
    have hf := heldBy_set hk f.freed i
    rw [freed_holds] at hf
    omega
  have hstart : Forwarding.Balanced socks₀ out (heldBy (st.frecs.set a.place f.freed))
      ⟨a.frec, st.servers, st.socks, st.srvSave, st.rfdSave, false, []⟩ := by
    rw [Forwarding.Balanced, List.append_nil]
    refine h.congr fun i => ?_
    have hf := heldBy_set hk f.freed i
    rw [freed_holds] at hf
    dsimp only
    rw [hholds]
    omega
  unfold sendAttempt
  generalize withMac w st.opts q (header.setId a.frec.newId) = packet
  dsimp only
  have hloop := sendLoop_balanced (w := w) a.type a.domain packet a.circle hstart
  generalize sendLoop w a.type a.domain packet a.circle
    ⟨a.frec, st.servers, st.socks, st.srvSave, st.rfdSave, false, []⟩ = s at hloop ⊢
  split
  next => exact hloop.congr fun i => (hset s.frec i).symm
  next =>
    have hfree : Ledger socks₀ (freeFrec s.frec s.socks).2.1 (out ++ s.out ++ (freeFrec s.frec s.socks).2.2)
        (heldBy (st.frecs.set a.place f.freed)) := .free hloop
    have hquiet := hfree.quiet _ (localReply_quiet st.opts q (packet.setId s.frec.origId) addrp 0)
    rw [List.append_assoc, List.append_assoc, ← List.append_assoc s.out] at hquiet
    refine hquiet.congr fun i => ?_
    have hfreed := hset (freeFrec s.frec s.socks).1 i
    rw [freeFrec_fst, freed_holds] at hfreed
    dsimp only
    rw [freeFrec_fst]
    omega

theorem forwardQuery_balanced {w : Outside} {now : Int} {q : Query} {forward : Option Nat}
    (st : Forwarder) (h : st.Balanced socks₀ out) {next : Bool × Forwarder × List Output}
    (hnext : forwardQuery w now q forward st = .ok next) : next.2.1.Balanced socks₀ (out ++ next.2.2) := by
  cases forwardQuery_cases hnext with
  | settled addrp flags => exact h.quiet _ (localReply_quiet _ _ _ _ _)
  | again place f a st₁ hplace hk ha next hsend =>
    obtain ⟨p, serv, -, -, -, hat, hfrec, hretry⟩ := retryAttempt_spec ha
    have hbalanced : st₁.Balanced socks₀ out := by
      rw [hretry]
      exact h
    have hplace : st₁.frecs[a.place]? = some f := by rw [hretry, hat]; exact hk
    have hholds : a.frec.holds = f.holds := by rw [hfrec]; rfl
    rw [hsend]
    exact sendAttempt_balanced st₁ hbalanced w q q.header.clearAd none hplace hholds
  | full new hnew addrp =>
    have hworn := Ledger.newFrec h w st.opts.ftabsize now false
    rw [← hnew] at hworn
    have hquiet := hworn.quiet _ (localReply_quiet st.opts q q.header.clearAd addrp F_NEG)
    rw [List.append_assoc] at hquiet
    exact hquiet
  | new new hnew search place f newId circle all st₁ hforward hfound hk hid hstart next hsend =>
    have hworn := Ledger.newFrec h w st.opts.ftabsize now false
    rw [← hnew] at hworn
    have hstarted := (startNew_spec hstart).1
    have hbalanced : st₁.Balanced socks₀ (out ++ new.out) := by
      rw [hstarted]
      exact hworn
    have hplace : st₁.frecs[place]? = some f := by rw [hstarted]; exact hk
    have hsent := sendAttempt_balanced st₁ hbalanced w q q.header.clearAd search.addr (a := ⟨place, newRecord
      { q with header := q.header.clearAd } (questionsCrc q.header) newId search.norebind all f, search.type,
      search.domain, circle⟩) hplace rfl
    rw [← hsend, List.append_assoc] at hsent
    exact hsent

theorem replyQuery_balanced {w : Outside} {now : Int} {d : Datagram} {st : Forwarder}
    (h : st.Balanced socks₀ out) {next : Forwarder × List Output} (hnext : replyQuery w now d st = .ok next) :
    next.1.Balanced socks₀ (out ++ next.2) := by
  cases replyQuery_cases hnext with
  | ignored => exact h.quiet [] nofun
  | again place f header _ hplace hk sent hsent => exact forwardQuery_balanced { st with srvSave := none } h hsent
  | finished place f p serv _ hplace hk hp hserv next hfinish =>
    have hstart := (replyServer_spec st.opts d serv p { st with srvSave := none }).1
    have hcases := finishReply_cases w d (replyServer st.opts d serv p { st with srvSave := none }).1 place f
      (replyServer st.opts d serv p { st with srvSave := none }).2
    rw [← hfinish] at hcases
    generalize (replyServer st.opts d serv p { st with srvSave := none }).2 = st₁ at hstart hcases
    have hbalanced : st₁.Balanced socks₀ out := by
      rw [hstart]
      exact h
    have hplace : st₁.frecs[place]? = some f := by rw [hstart]; exact hk
    cases hcases with
    | done g hg answer hanswer =>
      have hquiet : ∀ o ∈ answer, ∀ fd, o.opens fd = false ∧ o.closes fd = false := by
        intro o ho fd
        rcases hanswer with rfl | ⟨header, rfl⟩
        · cases ho
        · rw [List.mem_singleton.mp ho]
          exact ⟨rfl, rfl⟩
      have hholds : g.holds = f.holds := by rw [hg]; rfl
      have hfree := (hbalanced.quiet answer hquiet).set_free hplace hholds
      rw [List.append_assoc] at hfree
      exact hfree
    | kept =>
      rw [List.append_nil]
      refine hbalanced.congr fun i => ?_
      have hset := heldBy_set hplace { f with forwardall := f.forwardall - 1 } i
      have hholds : ({ f with forwardall := f.forwardall - 1 } : Frec).holds i = f.holds i := rfl
      dsimp only
      omega

theorem Ledger.gone {socks : RandomSocks} {n : RandfdId → Nat} (p : Nat) (fs : List Frec)
    (h : Ledger socks₀ socks out fun i => n i + heldBy fs i) :
    Ledger socks₀ (goneFrecs p fs socks).2.1 (out ++ (goneFrecs p fs socks).2.2) fun i =>
      n i + heldBy (goneFrecs p fs socks).1 i := by
  induction fs generalizing socks out n with
  | nil => rwa [goneFrecs, List.append_nil]
  | cons f fs ih =>
    rw [goneFrecs]
    split
    next =>
      have hfree : Ledger socks₀ (freeFrec f socks).2.1 (out ++ (freeFrec f socks).2.2) fun i => n i + heldBy fs i :=
        .free (h.congr fun i => by rw [heldBy_cons]; omega)
      have hrest := ih hfree
      rw [List.append_assoc] at hrest
      refine hrest.congr fun i => ?_
      rw [heldBy_cons, freeFrec_fst, freed_holds, Nat.zero_add]
    next =>
      have hrest := ih (n := fun i => n i + f.holds i) (h.congr fun i => by rw [heldBy_cons]; omega)
      exact hrest.congr fun i => by rw [heldBy_cons]; omega

theorem forwarderGone_balanced {st : Forwarder} (h : st.Balanced socks₀ out) (p : Nat) :
    (forwarderGone p st).1.Balanced socks₀ (out ++ (forwarderGone p st).2) := by
  have hgone := Ledger.gone (n := fun _ => 0) p st.frecs (h.congr fun i => (Nat.zero_add _).symm)
  exact hgone.congr fun i => Nat.zero_add _

theorem step_balanced {st : Forwarder} (h : st.Balanced socks₀ out) {e : ForwardEvent}
    {next : Forwarder × List Output} (hstep : st.step e = .ok next) : next.1.Balanced socks₀ (out ++ next.2) := by
  cases e with
  | query now w q =>
    obtain ⟨sent, hsent, rfl⟩ := map_eq_ok hstep
    exact forwardQuery_balanced { st with srvSave := none } h hsent
  | reply now w d => exact replyQuery_balanced h hstep
  | wait now w =>
    cases hstep
    exact Ledger.newFrec h w st.opts.ftabsize now true
  | servers gone new =>
    cases hstep
    refine serversGone_induct (motive := fun acc => acc.1.Balanced socks₀ (out ++ acc.2)) gone st ?_
      fun p acc hacc => ?_
    · rw [List.append_nil]
      exact h
    · have hgone := forwarderGone_balanced hacc p
      rwa [List.append_assoc] at hgone

def Log.outputs (log : Log) : List Output := log.flatMap Prod.snd

theorem run_balanced {es : List ForwardEvent} {st st' : Forwarder} {log : Log}
    (h : st.Balanced socks₀ out) (hrun : st.run es = .ok (st', log)) : st'.Balanced socks₀ (out ++ log.outputs) := by
  induction es generalizing st log out with
  | nil =>
    cases hrun
    rw [show Log.outputs [] = [] from rfl, List.append_nil]
    exact h
  | cons e es ih =>
    obtain ⟨next, hstep, hrun⟩ := bind_eq_ok hrun
    obtain ⟨⟨st₁, log₁⟩, hrest, hlog⟩ := map_eq_ok hrun
    obtain ⟨rfl, rfl⟩ := Prod.mk.inj hlog
    have hend := ih (step_balanced h hstep) hrest
    rwa [List.append_assoc] at hend

/-- Over any run that begins without records and sockets, every random socket counts the records that hold it, its
count fits in 16 bits, and what has been opened and not closed are the sockets that records hold. -/
theorem run_sockets {es : List ForwardEvent} {st st' : Forwarder} {log : Log} (hfrecs : st.frecs = [])
    (hsocks : ∀ i, (st.socks.sock i).refcount = 0) (hrun : st.run es = .ok (st', log)) :
    (∀ i, (st'.socks.sock i).refcount = heldBy st'.frecs i ∧ (st'.socks.sock i).refcount ≤ 0xffff) ∧
      ∀ fd, log.outputs.countP (Output.opens fd) = log.outputs.countP (Output.closes fd) + st'.socks.live fd := by
  have hstart : st.Balanced st.socks [] :=
    ⟨fun i => by rw [hsocks i, hfrecs]; rfl, fun i => by rw [hfrecs]; exact Nat.zero_le _, fun fd => rfl⟩
  have hend := run_balanced hstart hrun
  rw [List.nil_append] at hend
  refine ⟨fun i => ⟨hend.held i, ?_⟩, fun fd => ?_⟩
  · rw [hend.held i]
    exact hend.cap i
  · have hnone : st.socks.live fd = 0 := by simp [RandomSocks.live, Randfd.live, hsocks]
    have hbalance := hend.balance fd
    omega

def randomServer : Forwarder :=
  { oneServer with servers := [(1, ⟨.in4 53 8, .in4 0 0, [], none, none, 0, 0, 0, 0⟩)] }

theorem run_sockets_one : ∃ st' log, randomServer.run oneExchange = .ok (st', log) ∧
    (∀ i, (st'.socks.sock i).refcount = heldBy st'.frecs i ∧ (st'.socks.sock i).refcount ≤ 0xffff) ∧
      ∀ fd, log.outputs.countP (Output.opens fd) = log.outputs.countP (Output.closes fd) + st'.socks.live fd :=
  ⟨_, _, rfl, @run_sockets oneExchange randomServer _ _ rfl (fun _ => rfl) rfl⟩

end Run

end G361FPlatform.Dnsmasq
