import G361FPlatform.Dnsmasq.Forward
import G361FPlatform.Library.Tickets

namespace G361FPlatform.Dnsmasq

open Library

/-- Whom an answer goes to, from where, and its id. -/
structure Client where
  fd : Int
  source : MySockaddr
  dest : BitVec 128
  iface : Nat
  id : UInt16
  deriving DecidableEq

def Query.client (q : Query) : Client := ⟨q.udpfd, q.udpaddr, q.dstAddr, q.dstIface, q.header.id⟩

def Frec.client (f : Frec) : Client := ⟨f.fd, f.source, f.dest, f.iface, f.origId⟩

def Frec.inUse (f : Frec) : Bool := f.sentto.isSome

def Frec.ticket (f : Frec) : Ticket Client (UInt32 × UInt16) := ⟨f.client, (f.crc, f.newId)⟩

def Frec.freed (f : Frec) : Frec :=
  { f with rfd4 := none, rfd6 := none, sentto := none, noRebind := false, checkingDisabled := false }

theorem freeFrec_fst (f : Frec) (socks : RandomSocks) : (freeFrec f socks).1 = f.freed := rfl

@[simp] theorem freed_inUse (f : Frec) : f.freed.inUse = false := rfl

@[simp] theorem setTime_inUse (now : Int) (f : Frec) : (setTime now f).inUse = f.inUse := rfl

section Tickets

def tickets (frecs : List Frec) : Multiset (Ticket Client (UInt32 × UInt16)) :=
  (frecs.filter Frec.inUse).map Frec.ticket

variable {frecs : List Frec} {f g : Frec}

theorem tickets_cons_of_inUse (h : f.inUse = true) : tickets (f :: frecs) = f.ticket ::ₘ tickets frecs := by
  simp [tickets, h]

theorem tickets_cons_of_free (h : f.inUse = false) : tickets (f :: frecs) = tickets frecs := by
  simp [tickets, h]

theorem tickets_cons_le : tickets frecs ≤ tickets (f :: frecs) := by
  cases h : f.inUse with
  | false => exact (tickets_cons_of_free h).ge
  | true => exact (tickets_cons_of_inUse h) ▸ Multiset.le_cons_self _ _

theorem mem_tickets {t : Ticket Client (UInt32 × UInt16)} :
    t ∈ tickets frecs ↔ ∃ f ∈ frecs, f.inUse = true ∧ f.ticket = t := by
  simp [tickets, and_assoc]

theorem tickets_set_of_free {k : Nat} (hk : frecs[k]? = some f) (hf : f.inUse = false) (hg : g.inUse = true) :
    tickets (frecs.set k g) = g.ticket ::ₘ tickets frecs := by
  induction frecs generalizing k with
  | nil => simp at hk
  | cons a frecs ih =>
    cases k with
    | zero =>
      obtain rfl : a = f := by simpa using hk
      rw [List.set_cons_zero, tickets_cons_of_inUse hg, tickets_cons_of_free hf]
    | succ k =>
      rw [List.set_cons_succ]
      cases ha : a.inUse with
      | false => rw [tickets_cons_of_free ha, tickets_cons_of_free ha, ih (by simpa using hk)]
      | true =>
        rw [tickets_cons_of_inUse ha, tickets_cons_of_inUse ha, ih (by simpa using hk), Multiset.cons_swap]

theorem tickets_set_free {k : Nat} (hk : frecs[k]? = some f) (hf : f.inUse = true) (hg : g.inUse = false) :
    tickets frecs = f.ticket ::ₘ tickets (frecs.set k g) := by
  have hlt := (List.getElem?_eq_some_iff.mp hk).1
  have hback : tickets ((frecs.set k g).set k f) = f.ticket ::ₘ tickets (frecs.set k g) :=
    tickets_set_of_free (List.getElem?_set_self hlt) hg hf
  have hself : frecs.set k f = frecs := by
    rw [(List.getElem?_eq_some_iff.mp hk).2.symm, List.set_getElem_self]
  rwa [List.set_set, hself] at hback

theorem tickets_set_of_ticket {k : Nat} (hk : frecs[k]? = some f) (huse : f.inUse = g.inUse)
    (h : f.inUse = true → f.ticket = g.ticket) : tickets (frecs.set k g) = tickets frecs := by
  induction frecs generalizing k with
  | nil => simp at hk
  | cons a frecs ih =>
    cases k with
    | zero =>
      obtain rfl : a = f := by simpa using hk
      cases ha : a.inUse with
      | false => rw [List.set_cons_zero, tickets_cons_of_free ha, tickets_cons_of_free (huse ▸ ha)]
      | true => rw [List.set_cons_zero, tickets_cons_of_inUse ha, tickets_cons_of_inUse (huse ▸ ha), h ha]
    | succ k =>
      have htail := ih (k := k) (by simpa using hk)
      rw [List.set_cons_succ]
      cases ha : a.inUse with
      | false => rw [tickets_cons_of_free ha, tickets_cons_of_free ha, htail]
      | true => rw [tickets_cons_of_inUse ha, tickets_cons_of_inUse ha, htail]

theorem tickets_set_free_le {k : Nat} (hg : g.inUse = false) : tickets (frecs.set k g) ≤ tickets frecs := by
  cases hk : frecs[k]? with
  | none => rw [List.set_eq_of_length_le (List.getElem?_eq_none_iff.mp hk)]
  | some f =>
    cases hf : f.inUse with
    | true => exact (tickets_set_free hk hf hg) ▸ Multiset.le_cons_self _ _
    | false => rw [tickets_set_of_ticket hk (hf.trans hg.symm) fun huse => by cases hf.symm.trans huse]

end Tickets

section Scan

def Frec.aged (now : Int) (f : Frec) : Frec := if f.inUse ∧ now - f.time ≥ 4 * TIMEOUT then f.freed else f

/-- What is known of `target` and `oldest` when the loop of `get_new_frec` has seen `seen`. -/
structure Scanned (now : Int) (seen : List Frec) (scan : FrecScan) : Prop where
  frecs : scan.frecs = seen.map (Frec.aged now)
  target : ∀ k ∈ scan.target, ∃ f, scan.frecs[k]? = some f ∧ f.inUse = false
  noTarget : scan.target = none → ∀ f ∈ seen, f.inUse = true ∧ now - f.time < 4 * TIMEOUT
  oldest : ∀ o ∈ scan.oldest, (∃ f, seen[o.1]? = some f ∧ f.inUse = true ∧ f.time = o.2) ∧
    ∀ f ∈ seen, f.inUse = true → o.2 ≤ f.time
  noOldest : scan.oldest = none → ∀ f ∈ seen, f.inUse = false

variable {now : Int} {seen : List Frec} {scan : FrecScan}

theorem Scanned.free {f : Frec} (h : Scanned now seen scan) (hf : f.inUse = false) :
    Scanned now (seen ++ [f]) { scan with frecs := scan.frecs ++ [f], target := some seen.length } where
  frecs := by simp [h.frecs, Frec.aged, hf]
  target := by
    rintro k ⟨⟩
    exact ⟨f, by simp [h.frecs], hf⟩
  noTarget := nofun
  oldest o ho := by
    obtain ⟨⟨g, hg, hgo⟩, hmin⟩ := h.oldest o ho
    refine ⟨⟨g, ?_, hgo⟩, fun f' hf' huse => ?_⟩
    · rw [List.getElem?_append_left (List.getElem?_eq_some_iff.mp hg).1, hg]
    · rcases List.mem_append.mp hf' with hmem | hmem
      · exact hmin f' hmem huse
      · rw [List.mem_singleton.mp hmem, hf] at huse
        cases huse
  noOldest ho f' hf' := by
    rcases List.mem_append.mp hf' with hmem | hmem
    · exact h.noOldest ho f' hmem
    · rwa [List.mem_singleton.mp hmem]

def takeOldest (i : Nat) (f : Frec) (oldest : Option (Nat × Int)) : Option (Nat × Int) :=
  if oldest.all fun o => f.time - o.2 ≤ 0 then some (i, f.time) else oldest

theorem Scanned.older {f : Frec} (h : Scanned now seen scan) (hf : f.inUse = true) :
    ∃ o, takeOldest seen.length f scan.oldest = some o ∧
      (∃ g, (seen ++ [f])[o.1]? = some g ∧ g.inUse = true ∧ g.time = o.2) ∧
      ∀ g ∈ seen ++ [f], g.inUse = true → o.2 ≤ g.time := by
  unfold takeOldest
  split
  next hall =>
    refine ⟨_, rfl, ⟨f, by simp, hf, rfl⟩, fun g hg huse => ?_⟩
    rcases List.mem_append.mp hg with hmem | hmem
    · cases hold : scan.oldest with
      | none => rw [h.noOldest hold g hmem] at huse; cases huse
      | some o =>
        have hmin := (h.oldest o hold).2 g hmem huse
        rw [hold] at hall
        simp only [Option.all_some, decide_eq_true_eq] at hall
        show f.time ≤ g.time
        omega
    · rw [List.mem_singleton.mp hmem]
  next hall =>
    cases hold : scan.oldest with
    | none => simp [hold] at hall
    | some o =>
      obtain ⟨⟨g, hg, hgo⟩, hmin⟩ := h.oldest o hold
      refine ⟨o, rfl, ⟨g, ?_, hgo⟩, fun f' hf' huse => ?_⟩
      · rw [List.getElem?_append_left (List.getElem?_eq_some_iff.mp hg).1, hg]
      · rcases List.mem_append.mp hf' with hmem | hmem
        · exact hmin f' hmem huse
        · rw [hold] at hall
          simp only [Option.all_some, decide_eq_true_eq] at hall
          rw [List.mem_singleton.mp hmem]
          omega

theorem Scanned.used {f : Frec} (h : Scanned now seen scan) (hf : f.inUse = true)
    (hyoung : now - f.time < 4 * TIMEOUT) :
    Scanned now (seen ++ [f])
      { scan with frecs := scan.frecs ++ [f], oldest := takeOldest seen.length f scan.oldest } where
  frecs := by
    have hage : f.aged now = f := if_neg fun hold => absurd hold.2 (by omega)
    simp [h.frecs, hage]
  target k hk := by
    obtain ⟨g, hg, huse⟩ := h.target k hk
    exact ⟨g, by rw [List.getElem?_append_left (List.getElem?_eq_some_iff.mp hg).1, hg], huse⟩
  noTarget hnone g hg := by
    rcases List.mem_append.mp hg with hmem | hmem
    · exact h.noTarget hnone g hmem
    · rw [List.mem_singleton.mp hmem]
      exact ⟨hf, hyoung⟩
  oldest o ho := by
    obtain ⟨o', ho', hspec⟩ := h.older hf
    obtain rfl : o' = o := Option.some.inj (ho'.symm.trans ho)
    exact hspec
  noOldest hnone := by
    obtain ⟨o, ho, -⟩ := h.older hf
    cases ho.symm.trans hnone

theorem Scanned.old {f : Frec} (h : Scanned now seen scan) (hf : f.inUse = true)
    (hold : now - f.time ≥ 4 * TIMEOUT) (socks : RandomSocks) (out : List Output) :
    Scanned now (seen ++ [f])
      ⟨scan.frecs ++ [f.freed], socks, some seen.length, takeOldest seen.length f scan.oldest, out⟩ where
  frecs := by
    have hage : f.aged now = f.freed := if_pos ⟨hf, hold⟩
    simp [h.frecs, hage]
  target := by
    rintro k ⟨⟩
    exact ⟨f.freed, by simp [h.frecs], rfl⟩
  noTarget := nofun
  oldest o ho := by
    obtain ⟨o', ho', hspec⟩ := h.older hf
    obtain rfl : o' = o := Option.some.inj (ho'.symm.trans ho)
    exact hspec
  noOldest hnone := by
    obtain ⟨o, ho, -⟩ := h.older hf
    cases ho.symm.trans hnone

theorem scanFrecs_scanned (fs : List Frec) (h : Scanned now seen scan) :
    Scanned now (seen ++ fs) (scanFrecs now seen.length fs scan) := by
  induction fs generalizing seen scan with
  | nil => simpa [scanFrecs] using h
  | cons f fs ih =>
    have hlen : (seen ++ [f]).length = seen.length + 1 := by simp
    have happ : seen ++ f :: fs = (seen ++ [f]) ++ fs := by simp
    rw [happ, scanFrecs, ← hlen]
    cases hf : f.inUse with
    | false =>
      rw [if_pos (by simpa [Frec.inUse] using hf)]
      exact ih (h.free hf)
    | true =>
      rw [if_neg (by simpa [Frec.inUse, Option.isSome_iff_ne_none] using hf)]
      dsimp only
      split
      next hold => exact ih (h.old hf hold _ _)
      next hold => exact ih (h.used hf (by omega))

theorem scanFrecs_spec (now : Int) (frecs : List Frec) (socks : RandomSocks) :
    Scanned now frecs (scanFrecs now 0 frecs ⟨[], socks, none, none, []⟩) := by
  have hnil : Scanned now [] ⟨[], socks, none, none, []⟩ := by
    constructor <;> simp
  exact scanFrecs_scanned frecs hnil

theorem Scanned.frecs_eq {frecs : List Frec} (h : Scanned now frecs scan) (hnone : scan.target = none) :
    scan.frecs = frecs := by
  rw [h.frecs]
  conv_rhs => rw [← List.map_id frecs]
  refine List.map_congr_left fun f hf => ?_
  exact if_neg fun hold => absurd hold.2 (by have := (h.noTarget hnone f hf).2; omega)

end Scan

section NewFrec

inductive NewFrecCase (w : Outside) (ftabsize : Nat) (now : Int) (wait : Bool) (frecs : List Frec) (scan : FrecScan) :
    NewFrec → Prop
  | target (k : Nat) (h : scan.target = some k) : NewFrecCase w ftabsize now wait frecs scan
      ⟨some k, 0, scan.frecs.modify k (setTime now), scan.socks, scan.out⟩
  | allocate (h : scan.target = none) (hcount : frecs.length ≤ ftabsize) : NewFrecCase w ftabsize now wait frecs scan
      ⟨some 0, 0, allocateFrec now scan.frecs, scan.socks, scan.out⟩
  | look (i : Nat) (h : scan.target = none) (hwait : wait = true) : NewFrecCase w ftabsize now wait frecs scan
      ⟨some i, 0, scan.frecs, scan.socks, scan.out⟩
  | steal (i : Nat) (f : Frec) (h : scan.target = none) (hwait : wait = false) (hf : scan.frecs[i]? = some f)
      (hold : now - f.time ≥ TIMEOUT) : NewFrecCase w ftabsize now wait frecs scan
      ⟨some i, 0, scan.frecs.set i (setTime now (freeFrec f scan.socks).1), (freeFrec f scan.socks).2.1,
        scan.out ++ (freeFrec f scan.socks).2.2⟩
  | none (delay : Int) (h : scan.target = none) (hyoung : ∀ f ∈ frecs, now - f.time < TIMEOUT)
      (hfull : ftabsize < frecs.length ∨ w.malloc = false) (hdelay : wait = true → 0 < delay) :
      NewFrecCase w ftabsize now wait frecs scan ⟨none, delay, scan.frecs, scan.socks, scan.out⟩

variable (w : Outside) (ftabsize : Nat) (now : Int) (wait : Bool) (frecs : List Frec) (socks : RandomSocks)

theorem getNewFrec_cases : NewFrecCase w ftabsize now wait frecs (scanFrecs now 0 frecs ⟨[], socks, none, none, []⟩)
    (getNewFrec w ftabsize now wait frecs socks) := by
  have hscan := scanFrecs_spec now frecs socks
  unfold getNewFrec
  generalize scanFrecs now 0 frecs ⟨[], socks, none, none, []⟩ = scan at hscan ⊢
  dsimp only
  cases htarget : scan.target with
  | some k => exact .target k htarget
  | none =>
    have hused := hscan.noTarget htarget
    dsimp only
    cases hold : scan.oldest.filter fun o => now - o.2 ≥ TIMEOUT with
    | some o =>
      obtain ⟨hoold, hage⟩ := Option.filter_eq_some_iff.mp hold
      simp only [decide_eq_true_eq] at hage
      obtain ⟨⟨f, hf, -, hftime⟩, -⟩ := hscan.oldest o hoold
      rw [← hscan.frecs_eq htarget] at hf
      dsimp only
      split
      next halloc => exact .allocate htarget halloc.2.1
      next =>
        split
        next hwait => exact .look o.1 htarget hwait
        next hwait =>
          rw [hf]
          exact .steal o.1 f htarget (by simpa using hwait) hf (by omega)
    | none =>
      have hyoung : ∀ f ∈ frecs, now - f.time < TIMEOUT := by
        intro f hf
        cases ho : scan.oldest with
        | none => cases (hused f hf).1.symm.trans (hscan.noOldest ho f hf)
        | some o =>
          have hmin := (hscan.oldest o ho).2 f hf (hused f hf).1
          simp only [ho, Option.filter_some, decide_eq_true_eq] at hold
          split at hold
          · cases hold
          · omega
      dsimp only
      split
      next hcount =>
        refine .none _ htarget hyoung (.inl hcount) fun hwait => ?_
        cases ho : scan.oldest with
        | none =>
          cases frecs with
          | nil => simp at hcount
          | cons f fs => cases (hused f List.mem_cons_self).1.symm.trans (hscan.noOldest ho f List.mem_cons_self)
        | some o =>
          obtain ⟨⟨f, hf, -, hftime⟩, -⟩ := hscan.oldest o ho
          have hage := hyoung f (List.mem_of_getElem? hf)
          rw [if_pos hwait, Option.map_some, Option.getD_some]
          omega
      next hcount =>
        split
        next => exact .allocate htarget (by omega)
        next hmalloc =>
          refine .none _ htarget hyoung (.inr (by simpa using hmalloc)) fun hwait => ?_
          rw [if_pos hwait]
          exact Int.one_pos

def Frec.Kept (now : Int) (f g : Frec) : Prop :=
  g = f ∨ g.inUse = false ∧ (f.inUse = true → now - f.time ≥ TIMEOUT)

theorem Frec.Kept.aged (now : Int) (f : Frec) : f.Kept now (f.aged now) := by
  unfold Frec.aged
  split
  next hold =>
    refine .inr ⟨rfl, fun _ => ?_⟩
    have hold := hold.2
    simp only [TIMEOUT] at hold ⊢
    omega
  next => exact .inl rfl

theorem Frec.Kept.setTime {f g : Frec} (h : f.Kept now g) (hg : g.inUse = false) : f.Kept now (setTime now g) := by
  refine .inr ⟨hg, fun hf => ?_⟩
  rcases h with rfl | ⟨-, hold⟩
  · cases hf.symm.trans hg
  · exact hold hf

theorem forall₂_set {R : α → β → Prop} {as : List α} {bs : List β} (h : List.Forall₂ R as bs) {k : Nat} {b c : β}
    (hk : bs[k]? = some b) (hR : ∀ a ∈ as, R a b → R a c) : List.Forall₂ R as (bs.set k c) := by
  induction h generalizing k with
  | nil => simp at hk
  | @cons a b' as bs hab hrest ih =>
    cases k with
    | zero =>
      obtain rfl : b' = b := by simpa using hk
      exact .cons (hR a List.mem_cons_self hab) hrest
    | succ k => exact .cons hab (ih (by simpa using hk) fun a' ha' => hR a' (List.mem_cons_of_mem a ha'))

theorem modify_eq_set {as : List α} {k : Nat} {a : α} (h : as[k]? = some a) (f : α → α) :
    as.modify k f = as.set k (f a) := by
  obtain ⟨hlt, heq⟩ := List.getElem?_eq_some_iff.mp h
  refine List.ext_getElem? fun i => ?_
  rw [List.getElem?_modify, List.getElem?_set]
  split
  next hi => simp [← hi, hlt, heq]
  next => simp

structure NewFrecGood (new : NewFrec) : Prop where
  kept : ∃ pre mid, new.frecs = pre ++ mid ∧ (∀ f ∈ pre, f.inUse = false) ∧ List.Forall₂ (Frec.Kept now) frecs mid
  young : ∀ f ∈ new.frecs, f.inUse = true → now - f.time < 4 * TIMEOUT
  length : new.frecs.length ≤ max frecs.length (ftabsize + 1)
  found : wait = false → ∀ k ∈ new.found, ∃ f, new.frecs[k]? = some f ∧ f.inUse = false ∧ f.time = now
  refused : new.found = none →
    (ftabsize < frecs.length ∨ w.malloc = false) ∧ ∀ f ∈ frecs, f.inUse = true ∧ now - f.time < TIMEOUT
  delay : wait = true → (new.wait = 0 ↔ new.found.isSome)

theorem Scanned.young {scan : FrecScan} (h : Scanned now frecs scan) {f : Frec} (hf : f ∈ scan.frecs)
    (huse : f.inUse = true) : now - f.time < 4 * TIMEOUT := by
  rw [h.frecs] at hf
  obtain ⟨g, -, rfl⟩ := List.mem_map.mp hf
  unfold Frec.aged at huse ⊢
  split at huse
  next => cases huse
  next hyoung =>
    rw [if_neg hyoung]
    by_contra hold
    exact hyoung ⟨huse, by omega⟩

omit socks in
variable {w ftabsize now wait frecs} in
theorem Scanned.good {scan : FrecScan} {new : NewFrec} (hscan : Scanned now frecs scan)
    (hcases : NewFrecCase w ftabsize now wait frecs scan new) : NewFrecGood w ftabsize now wait frecs new := by
  have hkept : List.Forall₂ (Frec.Kept now) frecs scan.frecs := by
    rw [hscan.frecs, List.forall₂_map_right_iff]
    exact List.forall₂_same.mpr fun f _ => .aged now f
  have hlen : scan.frecs.length = frecs.length := by rw [hscan.frecs, List.length_map]
  have hyoung := fun f hf => hscan.young now frecs (f := f) hf
  cases hcases with
  | target k h =>
    obtain ⟨f, hf, huse⟩ := hscan.target k h
    have hlt := (List.getElem?_eq_some_iff.mp hf).1
    rw [modify_eq_set hf]
    refine ⟨⟨[], _, rfl, nofun, forall₂_set hkept hf fun g _ hg => hg.setTime now huse⟩, fun g hg hguse => ?_,
      by simp [hlen], ?_, nofun, fun _ => by simp⟩
    · rcases List.mem_or_eq_of_mem_set hg with hmem | rfl
      · exact hyoung g hmem hguse
      · rw [setTime_inUse, huse] at hguse
        cases hguse
    · rintro - _ ⟨⟩
      exact ⟨_, List.getElem?_set_self hlt, huse, rfl⟩
  | allocate h hcount =>
    refine ⟨⟨[_], scan.frecs, rfl, by simp [Frec.inUse], hkept⟩, fun g hg hguse => ?_, ?_, ?_, nofun, fun _ => by simp⟩
    · rcases List.mem_cons.mp hg with rfl | hmem
      · cases hguse
      · exact hyoung g hmem hguse
    · simp only [allocateFrec, List.length_cons, hlen]
      omega
    · rintro - _ ⟨⟩
      exact ⟨_, rfl, rfl, rfl⟩
  | look i h hwait =>
    refine ⟨⟨[], scan.frecs, rfl, nofun, hkept⟩, hyoung, by simp [hlen], ?_, nofun, fun _ => by simp⟩
    rw [hwait]
    nofun
  | steal i f h hwait hf hold =>
    have hlt := (List.getElem?_eq_some_iff.mp hf).1
    refine ⟨⟨[], _, rfl, nofun, forall₂_set hkept hf fun g _ hg => .inr ⟨rfl, fun huse => ?_⟩⟩, fun g hg hguse => ?_,
      by simp [hlen], ?_, nofun, fun _ => by simp⟩
    · rcases hg with rfl | ⟨-, hgold⟩
      · exact hold
      · exact hgold huse
    · rcases List.mem_or_eq_of_mem_set hg with hmem | rfl
      · exact hyoung g hmem hguse
      · cases hguse
    · rintro - _ ⟨⟩
      exact ⟨_, List.getElem?_set_self hlt, rfl, rfl⟩
  | none delay h hyoungs hfull hdelay =>
    refine ⟨⟨[], scan.frecs, rfl, nofun, hkept⟩, hyoung, by simp [hlen], nofun,
      fun _ => ⟨hfull, fun f hf => ⟨(hscan.noTarget h f hf).1, hyoungs f hf⟩⟩, fun hwait => ?_⟩
    have hpos := hdelay hwait
    simp
    omega

theorem getNewFrec_good : NewFrecGood w ftabsize now wait frecs (getNewFrec w ftabsize now wait frecs socks) :=
  (scanFrecs_spec now frecs socks).good (getNewFrec_cases w ftabsize now wait frecs socks)

theorem tickets_le_of_kept {mid : List Frec} (h : List.Forall₂ (Frec.Kept now) frecs mid) :
    tickets mid ≤ tickets frecs := by
  induction h with
  | nil => exact le_refl _
  | @cons f g fs gs hfg _ ih =>
    rcases hfg with rfl | ⟨hg, -⟩
    · cases hf : g.inUse with
      | false => rwa [tickets_cons_of_free hf, tickets_cons_of_free hf]
      | true =>
        rw [tickets_cons_of_inUse hf, tickets_cons_of_inUse hf]
        exact Multiset.cons_le_cons _ ih
    · rw [tickets_cons_of_free hg]
      exact ih.trans tickets_cons_le

theorem tickets_append_free {pre mid : List Frec} (h : ∀ f ∈ pre, f.inUse = false) :
    tickets (pre ++ mid) = tickets mid := by
  induction pre with
  | nil => rfl
  | cons f pre ih =>
    rw [List.cons_append, tickets_cons_of_free (h f List.mem_cons_self),
      ih fun g hg => h g (List.mem_cons_of_mem f hg)]

theorem getNewFrec_tickets : tickets (getNewFrec w ftabsize now wait frecs socks).frecs ≤ tickets frecs := by
  have hgood := (scanFrecs_spec now frecs socks).good (getNewFrec_cases w ftabsize now wait frecs socks)
  obtain ⟨pre, mid, heq, hpre, hmid⟩ := hgood.kept
  rw [heq, tickets_append_free hpre]
  exact tickets_le_of_kept now frecs hmid

end NewFrec

section Cases

theorem startNew_spec {now : Int} {type : UInt32} {st st' : Forwarder} {circle : List ServerNode} {all : Bool}
    (h : startNew now type st = .ok (circle, all, st')) :
    st' = { st with forwardcount := st'.forwardcount, forwardtime := st'.forwardtime } ∧
      (circle = st.servers ∨ ∃ p, circleFrom st.servers p = .ok circle) := by
  unfold startNew at h
  split at h
  · split at h
    · cases h
      exact ⟨rfl, .inl rfl⟩
    · split at h
      · cases h
        exact ⟨rfl, .inl rfl⟩
      next p hp =>
        split at h
        · cases h
          exact ⟨rfl, .inl rfl⟩
        · obtain ⟨circle', hcircle, heq⟩ := map_eq_ok h
          cases heq
          exact ⟨rfl, .inr ⟨p, hcircle⟩⟩
  · cases h
    exact ⟨rfl, .inl rfl⟩

theorem retryAttempt_spec {st st' : Forwarder} {place : Nat} {f : Frec} {a : Attempt}
    (h : retryAttempt st place f = .ok (a, st')) :
    ∃ p serv, f.sentto = some p ∧ findServer st.servers p = .ok serv ∧ circleAfter st.servers p = .ok a.circle ∧
      a.place = place ∧ a.frec = { f with forwardall := a.frec.forwardall } ∧
      st' = { st with
        servers := updateServer p (fun serv => { serv with failedQueries := serv.failedQueries + 1 }) st.servers
        lastServer := if st.opts.order then st.lastServer else none } := by
  unfold retryAttempt at h
  split at h
  next => cases h
  next p hp =>
    obtain ⟨serv, hserv, h⟩ := bind_eq_ok h
    obtain ⟨circle, hcircle, h⟩ := map_eq_ok h
    obtain ⟨rfl, rfl⟩ := Prod.mk.inj h
    refine ⟨p, serv, hp, hserv, hcircle, rfl, ?_, rfl⟩
    dsimp only
    split <;> rfl

inductive ForwardCase (w : Outside) (now : Int) (q : Query) (forward : Option Nat) (st : Forwarder) :
    Bool × Forwarder × List Output → Prop
  | settled (addrp : Option MySockaddr) (flags : UInt32) :
      ForwardCase w now q forward st (false, st, localReply st.opts q q.header.clearAd addrp flags)
  | again (place : Nat) (f : Frec) (a : Attempt) (st₁ : Forwarder)
      (hplace : forward.or
        (lookupFrecBySender st.frecs q.header.clearAd.id q.udpaddr (questionsCrc q.header)) = some place)
      (hk : st.frecs[place]? = some f) (ha : retryAttempt st place f = .ok (a, st₁))
      (next : Bool × Forwarder × List Output) (hsend : next = sendAttempt w q q.header.clearAd none a st₁) :
      ForwardCase w now q forward st next
  | full (new : NewFrec) (hnew : new = getNewFrec w st.opts.ftabsize now false st.frecs st.socks)
      (addrp : Option MySockaddr) (hforward : forward = none) (hnone : new.found = none) :
      ForwardCase w now q forward st (false, { st with frecs := new.frecs, socks := new.socks },
        new.out ++ localReply st.opts q q.header.clearAd addrp F_NEG)
  | new (new : NewFrec) (hnew : new = getNewFrec w st.opts.ftabsize now false st.frecs st.socks)
      (search : ServerSearch) (place : Nat) (f : Frec) (newId : UInt16) (circle : List ServerNode) (all : Bool)
      (st₁ : Forwarder) (hforward : forward = none) (hfound : new.found = some place)
      (hk : new.frecs[place]? = some f) (hid : getId new.frecs (questionsCrc q.header) w.rand16 = .ok newId)
      (hstart : startNew now search.type { st with frecs := new.frecs, socks := new.socks } = .ok (circle, all, st₁))
      (next : Bool × Forwarder × List Output)
      (hsend : next = sendAttempt w q q.header.clearAd search.addr
        ⟨place, newRecord { q with header := q.header.clearAd } (questionsCrc q.header) newId search.norebind all f,
          search.type, search.domain, circle⟩ st₁) :
      ForwardCase w now q forward st (next.1, next.2.1, new.out ++ next.2.2)

theorem forwardQuery_cases {w : Outside} {now : Int} {q : Query} {forward : Option Nat} {st : Forwarder}
    {next : Bool × Forwarder × List Output} (h : forwardQuery w now q forward st = .ok next) :
    ForwardCase w now q forward st next := by
  unfold forwardQuery at h
  dsimp only at h
  split at h
  next =>
    cases h
    exact .settled none 0
  next =>
    split at h
    next place hplace =>
      split at h
      next => cases h
      next f hk =>
        obtain ⟨⟨a, st₁⟩, ha, rfl⟩ := map_eq_ok h
        exact .again place f a st₁ hplace hk ha _ rfl
    next hplace =>
      obtain ⟨hforward, -⟩ := Option.or_eq_none_iff.mp hplace
      split at h
      next =>
        cases h
        exact .settled _ _
      next =>
        unfold forwardNew at h
        dsimp only at h
        split at h
        next hnone =>
          cases h
          exact .full _ rfl _ hforward hnone
        next place hfound =>
          split at h
          next => cases h
          next f hk =>
            obtain ⟨newId, hid, h⟩ := bind_eq_ok h
            obtain ⟨⟨circle, all, st₁⟩, hstart, rfl⟩ := map_eq_ok h
            exact .new _ rfl _ place f newId circle all st₁ hforward hfound hk hid hstart _ rfl

inductive FinishCase (w : Outside) (d : Datagram) (server : Option Nat) (place : Nat) (f : Frec) (st : Forwarder) :
    Forwarder × List Output → Prop
  | done (g : Frec) (hg : g = { f with forwardall := g.forwardall }) (answer : List Output)
      (hanswer : answer = [] ∨ ∃ header : Packet, answer =
        [.answer f.fd f.source f.dest f.iface ((header.setId f.origId).setHb4 (header.hb4 ||| 0x80))]) :
      FinishCase w d server place f st ({ st with
        frecs := st.frecs.set place (freeFrec g st.socks).1
        socks := (freeFrec g st.socks).2.1 }, answer ++ (freeFrec g st.socks).2.2)
  | kept (hfail : isFailure d.header = true) (hall : f.forwardall ≠ 0) (hmore : f.forwardall - 1 ≠ 1) :
      FinishCase w d server place f st
        ({ st with frecs := st.frecs.set place { f with forwardall := f.forwardall - 1 } }, [])

theorem finishReply_cases (w : Outside) (d : Datagram) (server : Option Nat) (place : Nat) (f : Frec)
    (st : Forwarder) : FinishCase w d server place f st (finishReply w d server place f st) := by
  unfold finishReply
  dsimp only
  split
  next =>
    refine .done _ ?_ _ ?_
    · split <;> rfl
    · split
      next header _ => exact .inr ⟨header, rfl⟩
      next => exact .inl rfl
  next hmore =>
    simp only [Bool.not_eq_true, not_or, Bool.not_eq_false] at hmore
    exact .kept hmore.2.2 hmore.1 hmore.2.1

inductive ReplyCase (w : Outside) (now : Int) (d : Datagram) (st : Forwarder) :
    Forwarder × List Output → Prop
  | ignored : ReplyCase w now d st ({ st with srvSave := none }, [])
  | again (place : Nat) (f : Frec) (header : Packet) (hserver : fromServer st.servers d.serveraddr = true)
      (hplace : lookupFrec st.frecs d.header.id (questionsCrc d.header) = some place) (hk : st.frecs[place]? = some f)
      (next : Bool × Forwarder × List Output)
      (h : forwardQuery w now ⟨-1, .unspec, 0, 0, header⟩ (some place) { st with srvSave := none } = .ok next) :
      ReplyCase w now d st next.2
  | finished (place : Nat) (f : Frec) (p : Nat) (serv : Server) (hserver : fromServer st.servers d.serveraddr = true)
      (hplace : lookupFrec st.frecs d.header.id (questionsCrc d.header) = some place) (hk : st.frecs[place]? = some f)
      (hp : f.sentto = some p) (hserv : findServer st.servers p = .ok serv) (next : Forwarder × List Output)
      (h : next = finishReply w d (replyServer st.opts d serv p { st with srvSave := none }).1 place f
        (replyServer st.opts d serv p { st with srvSave := none }).2) :
      ReplyCase w now d st next

theorem replyQuery_cases {w : Outside} {now : Int} {d : Datagram} {st : Forwarder}
    {next : Forwarder × List Output} (h : replyQuery w now d st = .ok next) :
    ReplyCase w now d st next := by
  unfold replyQuery at h
  dsimp only at h
  split at h
  next =>
    cases h
    exact .ignored
  next hgood =>
    simp only [not_or, Decidable.not_not] at hgood
    split at h
    next =>
      cases h
      exact .ignored
    next place hplace =>
      split at h
      next => cases h
      next f hk =>
        split at h
        next => cases h
        next p hp =>
          split at h
          next header _ =>
            obtain ⟨next, hnext, rfl⟩ := map_eq_ok h
            exact .again place f header hgood.1 hplace hk next hnext
          next =>
            obtain ⟨serv, hserv, rfl⟩ := map_eq_ok h
            exact .finished place f p serv hgood.1 hplace hk hp hserv _ rfl

theorem replyServer_spec (opts : Options) (d : Datagram) (serv : Server) (p : Nat) (st : Forwarder) :
    (replyServer opts d serv p st).2 = { st with lastServer := (replyServer opts d serv p st).2.lastServer } ∧
      ((replyServer opts d serv p st).2.lastServer = st.lastServer ∨
        (replyServer opts d serv p st).2.lastServer = none ∨ (replyServer opts d serv p st).2.lastServer = some p ∨
        (replyServer opts d serv p st).2.lastServer = goodServer st.servers d.serveraddr) := by
  unfold replyServer
  split
  next => exact ⟨rfl, .inl rfl⟩
  next =>
    dsimp only
    split
    next => exact ⟨rfl, .inl rfl⟩
    next =>
      refine ⟨rfl, .inr ?_⟩
      dsimp only
      split
      next => exact .inl rfl
      next =>
        cases goodServer st.servers d.serveraddr with
        | none => exact .inr (.inl rfl)
        | some s => exact .inr (.inr rfl)

def Frec.goneFrom (p : Nat) (f : Frec) : Frec := if f.sentto = some p then f.freed else f

theorem goneFrecs_frecs (p : Nat) (fs : List Frec) (socks : RandomSocks) :
    (goneFrecs p fs socks).1 = fs.map (Frec.goneFrom p) := by
  induction fs generalizing socks with
  | nil => rfl
  | cons f fs ih =>
    rw [goneFrecs, List.map_cons, Frec.goneFrom]
    split <;> simp [ih, freeFrec_fst]

theorem forwarderGone_frecs (p : Nat) (st : Forwarder) :
    (forwarderGone p st).1.frecs = st.frecs.map (Frec.goneFrom p) := goneFrecs_frecs p st.frecs st.socks

theorem serversGone_induct {motive : Forwarder × List Output → Prop} (gone : List Nat) (st : Forwarder)
    (h0 : motive (st, []))
    (hstep : ∀ p acc, motive acc → motive ((forwarderGone p acc.1).1, acc.2 ++ (forwarderGone p acc.1).2)) :
    motive (serversGone gone st) := by
  unfold serversGone
  generalize ((st, []) : Forwarder × List Output) = acc at h0 ⊢
  induction gone generalizing acc with
  | nil => exact h0
  | cons p gone ih => exact ih _ (hstep p acc h0)

end Cases

end G361FPlatform.Dnsmasq
