import G361FPlatform.Dnsmasq.Servers

namespace G361FPlatform.Dnsmasq

open Library CString

section Definitions

variable {κ : Type}

def fromResolv (entries : List (Nat × Server)) : List (Nat × Server) :=
  entries.filter fun e => e.2.fromResolv

def others (entries : List (Nat × Server)) : List (Nat × Server) :=
  entries.filter fun e => !e.2.fromResolv

def given (queryPort : UInt16) (mark : UInt32) (saddrs : List CString) : List Server :=
  saddrs.filterMap (parseServer queryPort mark)

def forget (ps : List Nat) (ref : Option Nat) : Option Nat := ref.filter (· ∉ ps)

def goneAll (ps : List Nat) (d : Daemon κ) : Daemon κ where
  __ := d
  frecs := d.frecs.map (forget ps)
  lastServer := forget ps d.lastServer
  srvSave := forget ps d.srvSave
  events := d.events ++ ps.map .gone

/-- `malloc` gives addresses where there is no server, each of them once. -/
structure Daemon.Fresh (d : Daemon κ) : Prop where
  nodup : d.supply.Nodup
  free : ∀ p ∈ d.supply, d.cells p = none

variable (sys : System κ) (osport : Bool) (interfaces : List MySockaddr)

def keep (e : Nat × Server) (acc : Net κ × List (Nat × Server)) : Net κ × List (Nat × Server) :=
  match checkServer sys osport interfaces e.2 acc.1 with
  | (.ok val, net) => (net, (e.1, val) :: acc.2)
  | (.error _, net) => (net, acc.2)

def Rejects (serv : Server) (net : Net κ) : Prop :=
  serv.flags &&& noSocketFlags = 0 ∧
    (serv.addr.isNothing ∨ (∃ iface ∈ interfaces, sockaddrIsequal serv.addr iface) ∨
      serv.sfd = none ∧ ∃ errno, errno ≠ 0 ∧
        (allocateSfd sys osport serv.sourceAddr serv.interface serv.mark net).1 = .error errno)

/-- A list without the servers that are rejected, and the sockets then. The last server comes first,
and a socket that is made for it is there for the others. -/
inductive Keeps (net₀ : Net κ) : List (Nat × Server) → List (Nat × Server) → Net κ → Prop
  | nil : Keeps net₀ [] [] net₀
  | reject {p serv wanted kept net} : Keeps net₀ wanted kept net →
      Rejects sys osport interfaces serv net →
      Keeps net₀ ((p, serv) :: wanted) kept (checkServer sys osport interfaces serv net).2
  | keep {p serv wanted kept net} (sfd : Option ServerFd) : Keeps net₀ wanted kept net →
      ¬Rejects sys osport interfaces serv net →
      Keeps net₀ ((p, serv) :: wanted) ((p, { serv with sfd }) :: kept)
        (checkServer sys osport interfaces serv net).2

/-- The servers of the configuration, then the given ones: in the nodes of the former ones from
the last to the first, and in new nodes when there are no more. -/
def wanted (d : Daemon κ) (entries : List (Nat × Server)) (mark : UInt32) (saddrs : List CString) :
    List (Nat × Server) :=
  others entries ++
    ((fromResolv entries).reverse.map Prod.fst ++ d.supply).zip (given d.queryPort mark saddrs)

end Definitions

section Loops

variable {κ : Type} {d : Daemon κ} {frame : Heap Server} {n : Nat}
  {serv oldServers newServers ret : Option Nat} {entries olds news : List (Nat × Server)}

theorem forget_cons (p : Nat) (ps : List Nat) (ref : Option Nat) :
    forget (p :: ps) ref = forget ps (if ref = some p then none else ref) := by
  cases ref with
  | none => rfl
  | some q =>
    by_cases hq : q = p
    · rw [hq, if_pos rfl]
      exact Option.filter_some_neg (by simp)
    · rw [if_neg (mt Option.some.inj hq)]
      simp [forget, Option.filter_some, hq]

theorem forget_nil (ref : Option Nat) : forget [] ref = ref := by
  cases ref <;> rfl

theorem forget_ne {p : Nat} {ps : List Nat} (hp : p ∈ ps) (ref : Option Nat) : forget ps ref ≠ some p :=
  fun h => absurd (Option.filter_eq_some_iff.mp h).2 (by simpa using hp)

theorem goneAll_nil (d : Daemon κ) : goneAll [] d = d := by
  cases d
  simp [goneAll, funext forget_nil]

theorem goneAll_cons (p : Nat) (ps : List Nat) (d : Daemon κ) :
    goneAll (p :: ps) d = goneAll ps (serverGone p d) := by
  simp [goneAll, serverGone, funext (forget_cons p ps), Function.comp_def]

theorem splitLoop_eq
    (howns : d.cells.Owns frame [(serv, entries), (oldServers, olds), (newServers, news)])
    (hfuel : entries.length ≤ n) :
    ∃ cells old' new', splitLoop n serv oldServers newServers d =
        .ok (old', new', { goneAll ((fromResolv entries).map Prod.fst) d with cells }) ∧
      Heap.Owns cells frame
        [(old', (fromResolv entries).reverse ++ olds), (new', (others entries).reverse ++ news)] := by
  induction entries generalizing n serv oldServers newServers olds news d with
  | nil =>
    rw [show serv = none from howns.chains _ List.mem_cons_self]
    refine ⟨d.cells, oldServers, newServers, ?_, howns.of_cons_nil⟩
    rw [show (fromResolv []).map Prod.fst = [] from rfl, goneAll_nil]
    cases n <;> rfl
  | cons e rest ih =>
    obtain ⟨n, rfl⟩ : ∃ m, n = m + 1 := ⟨n - 1, by rw [List.length_cons] at hfuel; omega⟩
    have hfuel' : rest.length ≤ n := Nat.le_of_succ_le_succ hfuel
    by_cases hresolv : e.2.fromResolv
    · obtain ⟨rfl, next, hcell, hmoved⟩ := howns.move e.2
      obtain ⟨cells, old', new', heq, hleft⟩ := @ih (serverGone e.1
        { d with cells := d.cells.set e.1 ⟨e.2, oldServers⟩ }) n next _ _ _ _ hmoved hfuel'
      have hsplit : fromResolv (e :: rest) = e :: fromResolv rest := List.filter_cons_of_pos hresolv
      have hothers : others (e :: rest) = others rest := List.filter_cons_of_neg (by simp [hresolv])
      refine ⟨cells, old', new', ?_, ?_⟩
      · simp only [splitLoop, hcell, if_pos hresolv]
        rw [heq, hsplit, List.map_cons, goneAll_cons]
        rfl
      · rw [hsplit, hothers, List.reverse_cons, List.append_assoc]
        exact hleft
    · obtain ⟨rfl, next, hcell, hmoved⟩ :=
        (howns.perm (List.Perm.cons _ (List.Perm.swap _ _ _))).move e.2
      obtain ⟨cells, old', new', heq, hleft⟩ := @ih
        { d with cells := d.cells.set e.1 ⟨e.2, newServers⟩ } n next _ _ _ _
        (hmoved.perm (List.Perm.cons _ (List.Perm.swap _ _ _))) hfuel'
      have hsplit : fromResolv (e :: rest) = fromResolv rest := List.filter_cons_of_neg hresolv
      have hothers : others (e :: rest) = e :: others rest := List.filter_cons_of_pos (by simp [hresolv])
      refine ⟨cells, old', new', ?_, ?_⟩
      · simp only [splitLoop, hcell, if_neg hresolv]
        rw [heq, hsplit]
        rfl
      · rw [hsplit, hothers, List.reverse_cons, List.append_assoc]
        exact hleft

theorem Daemon.Fresh.set (hfresh : d.Fresh) {p : Nat} (hp : d.cells p ≠ none) (cell : Cell Server)
    (events : List NodeEvent) : Daemon.Fresh { d with cells := d.cells.set p cell, events } where
  nodup := hfresh.nodup
  free q hq := by
    have hne : q ≠ p := fun heq => hp (heq ▸ hfresh.free q hq)
    exact (Heap.set_of_ne d.cells hne).trans (hfresh.free q hq)

theorem Daemon.Fresh.malloc (hfresh : d.Fresh) {p : Nat} {supply : List Nat}
    (hsupply : d.supply = p :: supply) (cell : Cell Server) (events : List NodeEvent) :
    Daemon.Fresh { d with cells := d.cells.set p cell, supply, events } := by
  have hnodup := hfresh.nodup
  have hfree := hfresh.free
  rw [hsupply] at hnodup hfree
  obtain ⟨hp, hnodup⟩ := List.nodup_cons.mp hnodup
  refine ⟨hnodup, fun q hq => ?_⟩
  have hne : q ≠ p := fun heq => hp (heq ▸ hq)
  exact (Heap.set_of_ne d.cells hne).trans (hfree q (List.mem_cons_of_mem _ hq))

theorem addLoop_eq (mark : UInt32) {saddrs : List CString}
    (howns : d.cells.Owns frame [(oldServers, olds), (newServers, news)]) (hfresh : d.Fresh)
    (hbar : ∀ saddr ∈ saddrs, BAR ∉ saddr) (hfuel : saddrs.length ≤ n) :
    ∃ cells supply events old' new' left,
      addLoop mark n (join BAR saddrs) oldServers newServers d =
        .ok (old', new', { d with cells, supply, events := d.events ++ events }) ∧
      (∀ p, .gone p ∉ events) ∧ left.length ≤ olds.length ∧
      Heap.Owns cells frame [(old', left),
        (new', ((olds.map Prod.fst ++ d.supply).zip (given d.queryPort mark saddrs)).reverse ++ news)] := by
  induction saddrs generalizing n oldServers newServers olds news d with
  | nil =>
    refine ⟨d.cells, d.supply, [], oldServers, newServers, olds, ?_, fun p => List.not_mem_nil,
      Nat.le_refl _, ?_⟩
    · rw [List.append_nil]
      cases n <;> rfl
    · rw [given, List.filterMap_nil, List.zip_nil_right]
      exact howns
  | cons saddr rest ih =>
    obtain ⟨n, rfl⟩ : ∃ m, n = m + 1 := ⟨n - 1, by rw [List.length_cons] at hfuel; omega⟩
    have hfuel' : rest.length ≤ n := Nat.le_of_succ_le_succ hfuel
    obtain ⟨hsaddr, hrest⟩ := List.forall_mem_cons.mp hbar
    simp only [join_cons, addLoop, strsep_join hsaddr]
    cases hparse : parseServer d.queryPort mark saddr with
    | none =>
      rw [given, List.filterMap_cons_none hparse]
      exact ih howns hfresh hrest hfuel'
    | some server =>
      rw [given, List.filterMap_cons_some hparse]
      cases olds with
      | cons e olds =>
        obtain ⟨rfl, next, hcell, hmoved⟩ := howns.move server
        have hlive : d.cells e.1 ≠ none := by
          rw [hcell]
          exact Option.some_ne_none _
        obtain ⟨cells, supply, events, old', new', left, heq, hgone, hlen, hleft⟩ := @ih { d with
          cells := d.cells.set e.1 ⟨server, newServers⟩
          events := d.events ++ [.reuse e.1] } n next _ _ _ hmoved (hfresh.set hlive _ _) hrest hfuel'
        refine ⟨cells, supply, .reuse e.1 :: events, old', new', left, ?_, fun p => ?_, ?_, ?_⟩
        · simp only [hcell]
          rw [heq, List.append_assoc, List.singleton_append]
        · simp [hgone p]
        · exact Nat.le_succ_of_le hlen
        · rw [List.map_cons, List.cons_append, List.zip_cons_cons, List.reverse_cons, List.append_assoc]
          exact hleft
      | nil =>
        obtain rfl : oldServers = none := howns.chains _ List.mem_cons_self
        cases hsupply : d.supply with
        | nil =>
          obtain ⟨cells, supply, events, old', new', left, heq, hgone, hlen, hleft⟩ :=
            ih howns hfresh hrest hfuel'
          refine ⟨cells, supply, events, old', new', left, heq, hgone, hlen, ?_⟩
          rw [hsupply] at hleft
          exact hleft
        | cons p supply' =>
          have hp : d.cells p = none := hfresh.free p (hsupply ▸ List.mem_cons_self)
          have hpushed := (howns.perm (List.Perm.swap _ _ _)).push hp server
          obtain ⟨cells, supply, events, old', new', left, heq, hgone, hlen, hleft⟩ := @ih { d with
            cells := d.cells.set p ⟨server, newServers⟩
            supply := supply'
            events := d.events ++ [.malloc p] } n none _ _ _ (hpushed.perm (List.Perm.swap _ _ _))
            (hfresh.malloc hsupply _ _) hrest hfuel'
          refine ⟨cells, supply, .malloc p :: events, old', new', left, ?_, fun p => ?_, hlen, ?_⟩
          · refine heq.trans ?_
            rw [List.append_assoc, List.singleton_append]
          · simp [hgone p]
          · rw [List.map_nil, List.nil_append, List.zip_cons_cons, List.reverse_cons, List.append_assoc]
            exact hleft

theorem freeLoop_eq (howns : d.cells.Owns frame [(oldServers, olds), (newServers, news)])
    (hfuel : olds.length ≤ n) :
    ∃ cells, freeLoop n oldServers d =
        .ok { d with cells, events := d.events ++ olds.map fun e => .free e.1 } ∧
      Heap.Owns cells frame [(newServers, news)] := by
  induction olds generalizing n oldServers d with
  | nil =>
    obtain rfl : oldServers = none := howns.chains _ List.mem_cons_self
    refine ⟨d.cells, ?_, howns.of_cons_nil⟩
    rw [List.map_nil, List.append_nil]
    cases n <;> rfl
  | cons e rest ih =>
    obtain ⟨n, rfl⟩ : ∃ m, n = m + 1 := ⟨n - 1, by rw [List.length_cons] at hfuel; omega⟩
    obtain ⟨rfl, next, hcell, hrest⟩ := howns.uncons
    obtain ⟨cells, heq, hleft⟩ := @ih { d with
      cells := d.cells.remove e.1
      events := d.events ++ [.free e.1] } n next hrest (Nat.le_of_succ_le_succ hfuel)
    refine ⟨cells, ?_, hleft⟩
    simp only [freeLoop, hcell]
    rw [heq, List.append_assoc, List.singleton_append, List.map_cons]

theorem checkLoop_eq (sys : System κ) {kept : List (Nat × Server)}
    (howns : d.cells.Owns frame [(newServers, news), (ret, kept)]) (hfuel : news.length ≤ n) :
    ∃ cells events ret', checkLoop sys n newServers ret d = .ok (ret', { d with
        cells
        net := (news.foldl (fun acc e => keep sys d.osport d.interfaces e acc) (d.net, kept)).1
        events := d.events ++ events }) ∧
      (∀ p, .gone p ∉ events) ∧
      Heap.Owns cells frame
        [(ret', (news.foldl (fun acc e => keep sys d.osport d.interfaces e acc) (d.net, kept)).2)] := by
  induction news generalizing n newServers ret kept d with
  | nil =>
    obtain rfl : newServers = none := howns.chains _ List.mem_cons_self
    refine ⟨d.cells, [], ret, ?_, fun p => List.not_mem_nil, howns.of_cons_nil⟩
    rw [List.append_nil]
    cases n <;> rfl
  | cons e rest ih =>
    obtain ⟨n, rfl⟩ : ∃ m, n = m + 1 := ⟨n - 1, by rw [List.length_cons] at hfuel; omega⟩
    have hfuel' : rest.length ≤ n := Nat.le_of_succ_le_succ hfuel
    rw [List.foldl_cons]
    rcases hcheck : checkServer sys d.osport d.interfaces e.2 d.net with ⟨reason | val, net⟩
    · have hkeep : keep sys d.osport d.interfaces e (d.net, kept) = (net, kept) := by rw [keep, hcheck]
      obtain ⟨rfl, next, hcell, hrest⟩ := howns.uncons
      obtain ⟨cells, events, ret', heq, hgone, hleft⟩ := @ih { d with
        cells := d.cells.remove e.1
        net
        events := d.events ++ [.free e.1] } n next _ _ hrest hfuel'
      refine ⟨cells, .free e.1 :: events, ret', ?_, fun p => ?_, ?_⟩
      · simp only [checkLoop, hcell, hcheck, hkeep]
        refine heq.trans ?_
        rw [List.append_assoc, List.singleton_append]
      · simp [hgone p]
      · rw [hkeep]
        exact hleft
    · have hkeep : keep sys d.osport d.interfaces e (d.net, kept) = (net, (e.1, val) :: kept) := by
        rw [keep, hcheck]
      obtain ⟨rfl, next, hcell, hmoved⟩ := howns.move val
      obtain ⟨cells, events, ret', heq, hgone, hleft⟩ := @ih { d with
        cells := d.cells.set e.1 ⟨val, ret⟩
        net } n next _ _ hmoved hfuel'
      refine ⟨cells, events, ret', ?_, hgone, ?_⟩
      · simp only [checkLoop, hcell, hcheck, hkeep]
        exact heq
      · rw [hkeep]
        exact hleft

end Loops

section Servers

variable {κ : Type} (sys : System κ) (osport : Bool) (interfaces : List MySockaddr)

theorem checkServer_cases (serv : Server) (net : Net κ) :
    (Rejects sys osport interfaces serv net ∧
        ∃ reason, (checkServer sys osport interfaces serv net).1 = .error reason) ∨
      ¬Rejects sys osport interfaces serv net ∧
        ∃ sfd, (checkServer sys osport interfaces serv net).1 = .ok { serv with sfd } := by
  unfold checkServer
  by_cases hexempt : serv.flags &&& noSocketFlags ≠ 0
  · rw [if_pos hexempt]
    exact .inr ⟨fun h => hexempt h.1, serv.sfd, rfl⟩
  rw [if_neg hexempt]
  have hflags := not_ne_iff.mp hexempt
  by_cases hnothing : serv.addr.isNothing
  · rw [if_pos hnothing]
    exact .inl ⟨⟨hflags, .inl hnothing⟩, _, rfl⟩
  rw [if_neg hnothing]
  by_cases hlocal : interfaces.any (sockaddrIsequal serv.addr)
  · rw [if_pos hlocal]
    exact .inl ⟨⟨hflags, .inr (.inl (List.any_eq_true.mp hlocal))⟩, _, rfl⟩
  rw [if_neg hlocal]
  have hremote : ¬∃ iface ∈ interfaces, sockaddrIsequal serv.addr iface :=
    fun h => hlocal (List.any_eq_true.mpr h)
  cases hsfd : serv.sfd with
  | some sfd =>
    refine .inr ⟨?_, serv.sfd, rfl⟩
    rintro ⟨-, h | h | ⟨h, -⟩⟩
    · exact hnothing h
    · exact hremote h
    · rw [hsfd] at h
      cases h
  | none =>
    rw [if_neg (by decide)]
    rcases halloc : allocateSfd sys osport serv.sourceAddr serv.interface serv.mark net with
      ⟨errno | sfd, net'⟩
    · by_cases herrno : errno ≠ 0
      · refine .inl ⟨⟨hflags, .inr (.inr ⟨hsfd, errno, herrno, by rw [halloc]⟩)⟩, .noSocket errno, ?_⟩
        simp only [if_pos herrno]
      · refine .inr ⟨?_, none, ?_⟩
        · rintro ⟨-, h | h | ⟨-, errno', hne, h⟩⟩
          · exact hnothing h
          · exact hremote h
          · rw [halloc] at h
            exact herrno (Except.error.inj h ▸ hne)
        · simp only [if_neg herrno, ← hsfd]
    · refine .inr ⟨?_, some sfd, rfl⟩
      rintro ⟨-, h | h | ⟨-, errno', -, h⟩⟩
      · exact hnothing h
      · exact hremote h
      · rw [halloc] at h
        cases h

theorem keeps_foldr (net₀ : Net κ) (wanted : List (Nat × Server)) :
    Keeps sys osport interfaces net₀ wanted (wanted.foldr (keep sys osport interfaces) (net₀, [])).2
      (wanted.foldr (keep sys osport interfaces) (net₀, [])).1 := by
  induction wanted with
  | nil => exact .nil
  | cons e rest ih =>
    rw [List.foldr_cons]
    generalize rest.foldr (keep sys osport interfaces) (net₀, []) = acc at ih
    rcases hcheck : checkServer sys osport interfaces e.2 acc.1 with ⟨verdict, net⟩
    rcases checkServer_cases sys osport interfaces e.2 acc.1 with
      ⟨hrejects, reason, hverdict⟩ | ⟨hkept, sfd, hverdict⟩
    · have hkeeps := ih.reject (p := e.1) hrejects
      rw [hcheck] at hverdict hkeeps
      obtain rfl : verdict = .error reason := hverdict
      rw [keep, hcheck]
      exact hkeeps
    · have hkeeps := ih.keep (p := e.1) sfd hkept
      rw [hcheck] at hverdict hkeeps
      obtain rfl : verdict = .ok { e.2 with sfd } := hverdict
      rw [keep, hcheck]
      exact hkeeps

variable {sys osport interfaces} {wanted kept : List (Nat × Server)} {net₀ net : Net κ}

theorem Keeps.mem (hkeeps : Keeps sys osport interfaces net₀ wanted kept net) {e : Nat × Server}
    (he : e ∈ kept) : ∃ serv, (e.1, serv) ∈ wanted ∧ e.2 = { serv with sfd := e.2.sfd } := by
  induction hkeeps with
  | nil => cases he
  | reject _ _ ih =>
    obtain ⟨serv, hmem, heq⟩ := ih he
    exact ⟨serv, List.mem_cons_of_mem _ hmem, heq⟩
  | keep sfd _ _ ih =>
    rcases List.mem_cons.mp he with rfl | he
    · exact ⟨_, List.mem_cons_self, rfl⟩
    · obtain ⟨serv, hmem, heq⟩ := ih he
      exact ⟨serv, List.mem_cons_of_mem _ hmem, heq⟩

theorem mem_given {queryPort : UInt16} {mark : UInt32} {saddrs : List CString} {serv : Server}
    (h : serv ∈ given queryPort mark saddrs) :
    serv.addr.port = NAMESERVER_PORT ∧ serv.mark = mark ∧ serv.flags = SERV_FROM_RESOLV := by
  obtain ⟨saddr, -, hparse⟩ := List.mem_filterMap.mp h
  unfold parseServer at hparse
  split at hparse
  · cases hparse
    exact ⟨rfl, rfl, rfl⟩
  · split at hparse
    · cases hparse
      exact ⟨rfl, rfl, rfl⟩
    · cases hparse

end Servers

section Installation

variable {κ : Type} {sys : System κ} {d : Daemon κ} {entries : List (Nat × Server)} {mark : CString}
  {saddrs : List CString} {fuel : Nat}

/-- The servers are those of the configuration and the given ones, less the rejected; `kept` is the
list in memory. -/
structure ServersInstalled (sys : System κ) (entries : List (Nat × Server)) (mark : UInt32)
    (saddrs : List CString) (d d' : Daemon κ) (kept : List (Nat × Server)) : Prop where
  list : d'.cells.Chain d'.servers kept
  nodup : (kept.map Prod.fst).Nodup
  keeps : Keeps sys d.osport (d.scan sys).1 (d.scan sys).2 (wanted d entries mark saddrs) kept d'.net
  values : (wanted d entries mark saddrs).map Prod.snd =
    (others entries).map Prod.snd ++ given d.queryPort mark saddrs
  /-- no former server of the network is left -/
  resolv : ∀ e ∈ kept, e.2.fromResolv →
    (∃ serv ∈ given d.queryPort mark saddrs, e.2 = { serv with sfd := e.2.sfd }) ∧
    e.2.addr.port = NAMESERVER_PORT ∧ e.2.mark = mark ∧ e.2.flags = SERV_FROM_RESOLV
  released : ∀ p ∈ entries.map Prod.fst, p ∉ kept.map Prod.fst → d'.cells p = none
  frame : ∀ p, p ∉ entries.map Prod.fst → p ∉ kept.map Prod.fst → d'.cells p = d.cells p
  /-- `server_gone` ran for each former server of the network before any node was reused -/
  gone : ∃ events, d'.events = d.events ++ ((fromResolv entries).map Prod.fst).map .gone ++ events ∧
    ∀ p, .gone p ∉ events
  once : ((fromResolv entries).map Prod.fst).Nodup
  unreferenced : ∀ e ∈ fromResolv entries,
    some e.1 ∉ d'.frecs ∧ d'.lastServer ≠ some e.1 ∧ d'.srvSave ≠ some e.1

theorem wanted_length_le (d : Daemon κ) (entries : List (Nat × Server)) (mark : UInt32)
    (saddrs : List CString) : (wanted d entries mark saddrs).length ≤ entries.length + saddrs.length := by
  have hothers : (others entries).length ≤ entries.length := List.length_filter_le _ _
  have hgiven : (given d.queryPort mark saddrs).length ≤ saddrs.length := List.length_filterMap_le _ _
  rw [wanted, List.length_append, List.length_zip]
  omega

theorem notMem_split {p : Option Nat} (hchain : d.cells.Chain p entries) {q : Nat}
    (hq : d.cells q = none) (old' new' : Option Nat) :
    q ∉ Heap.addresses [(old', (fromResolv entries).reverse), (new', (others entries).reverse)] := by
  intro hmem
  simp only [Heap.addresses, List.flatMap_cons, List.flatMap_nil, List.append_nil, List.map_reverse,
    List.mem_append, List.mem_reverse] at hmem
  refine hchain.ne_none ?_ hq
  rcases hmem with hmem | hmem
  · exact (List.filter_sublist.map Prod.fst).subset hmem
  · exact (List.filter_sublist.map Prod.fst).subset hmem

def renewed (d : Daemon κ) (entries : List (Nat × Server)) (cells : Heap Server) (servers : Option Nat)
    (supply : List Nat) (events : List NodeEvent) : Daemon κ where
  __ := goneAll ((fromResolv entries).map Prod.fst) d
  cells := cells
  servers := servers
  supply := supply
  events := d.events ++ ((fromResolv entries).map Prod.fst).map .gone ++ events

theorem setServers_eq (hchain : d.cells.Chain d.servers entries) (hfresh : d.Fresh) (hmark : BAR ∉ mark)
    (hsaddrs : ∀ saddr ∈ saddrs, BAR ∉ saddr) (hlen : (mark ++ saddrs.flatMap (BAR :: ·)).length ≤ 1000)
    (hfuel : entries.length + saddrs.length ≤ fuel) :
    ∃ cells supply events new', setServers sys fuel (mark ++ saddrs.flatMap (BAR :: ·)) d =
        .ok (renewed d entries cells new' supply events) ∧
      (∀ p, .gone p ∉ events) ∧
      Heap.Owns cells (d.cells.without entries)
        [(new', (wanted d entries (parseMark sys.ulongBits mark) saddrs).reverse)] := by
  have hsize : ¬SERVERS_SIZE ≤ (mark ++ saddrs.flatMap (BAR :: ·)).length := by
    rw [SERVERS_SIZE]
    omega
  have howns : d.cells.Owns (d.cells.without entries) [(d.servers, entries), (none, []), (none, [])] :=
    (Heap.owns_of_chain hchain).cons_nil.cons_nil.perm (List.perm_append_singleton _ [_, _])
  obtain ⟨cells, old, new, hsplit, hsplitted⟩ := splitLoop_eq howns (Nat.le_of_add_right_le hfuel)
  simp only [List.append_nil] at hsplitted
  have hfresh' : Daemon.Fresh { goneAll ((fromResolv entries).map Prod.fst) d with cells } := by
    refine ⟨hfresh.nodup, fun q hq => ?_⟩
    have hnone := hfresh.free q hq
    exact (hsplitted.rest q (notMem_split hchain hnone _ _)).trans
      ((if_neg fun hmem => hchain.ne_none hmem hnone).trans hnone)
  obtain ⟨cells', supply, events, old', new', left, hadd, hgone, hleft, hadded⟩ :=
    addLoop_eq (parseMark sys.ulongBits mark) hsplitted hfresh' hsaddrs
      (Nat.le_of_add_left_le hfuel)
  have hleftover : left.length ≤ fuel := by
    have hresolv : (fromResolv entries).length ≤ entries.length := List.length_filter_le _ _
    rw [List.length_reverse] at hleft
    omega
  obtain ⟨cells'', hfree, hfreed⟩ :=
    freeLoop_eq (d := renewed d entries cells' d.servers supply events) hadded hleftover
  refine ⟨cells'', supply, events ++ left.map fun e => .free e.1, new', ?_, fun p => ?_, ?_⟩
  · simp only [setServers, if_neg hsize, strsep_join hmark]
    rw [hsplit, bind_ok]
    dsimp only
    rw [hadd, bind_ok]
    dsimp only
    refine (congrArg _ hfree).trans ?_
    simp only [map_ok, renewed, List.append_assoc]
  · simp [hgone p]
  · rw [wanted, List.reverse_append]
    exact hfreed

theorem Keeps.resolv {osport : Bool} {interfaces : List MySockaddr} {wanted kept : List (Nat × Server)}
    {net₀ net : Net κ} {m : UInt32} (hkeeps : Keeps sys osport interfaces net₀ wanted kept net)
    (hvalues : wanted.map Prod.snd = (others entries).map Prod.snd ++ given d.queryPort m saddrs) :
    ∀ e ∈ kept, e.2.fromResolv →
      (∃ serv ∈ given d.queryPort m saddrs, e.2 = { serv with sfd := e.2.sfd }) ∧
      e.2.addr.port = NAMESERVER_PORT ∧ e.2.mark = m ∧ e.2.flags = SERV_FROM_RESOLV := by
  intro e he hresolv
  obtain ⟨serv, hmem, heq⟩ := hkeeps.mem he
  have hserv : serv ∈ wanted.map Prod.snd := List.mem_map_of_mem (f := Prod.snd) hmem
  rw [hvalues] at hserv
  rcases List.mem_append.mp hserv with hother | hgiven
  · obtain ⟨e', he', rfl⟩ := List.mem_map.mp hother
    have hother' : e'.2.fromResolv = false := by simpa using (List.mem_filter.mp he').2
    rw [heq] at hresolv
    exact absurd hresolv (Bool.not_eq_true _ ▸ hother')
  · obtain ⟨hport, hmark, hflags⟩ := mem_given hgiven
    refine ⟨⟨serv, hgiven, heq⟩, ?_⟩
    rw [heq]
    exact ⟨hport, hmark, hflags⟩

theorem checkServers_eq (sys : System κ) {frame : Heap Server} {wanted : List (Nat × Server)}
    (howns : d.cells.Owns frame [(d.servers, wanted.reverse)]) (hfuel : wanted.length ≤ fuel) :
    ∃ cells events ret' kept net, checkServers sys fuel d =
        .ok { d with
          cells
          servers := ret'
          interfaces := (d.scan sys).1
          net
          events := d.events ++ events } ∧
      (∀ p, .gone p ∉ events) ∧ Keeps sys d.osport (d.scan sys).1 (d.scan sys).2 wanted kept net ∧
      Heap.Owns cells frame [(ret', kept)] := by
  rw [← List.length_reverse] at hfuel
  have howns' : (d.enumerated sys).cells.Owns frame [(d.servers, wanted.reverse), (none, [])] :=
    howns.cons_nil.perm (List.Perm.swap _ _ _)
  obtain ⟨cells, events, ret', heq, hgone, hleft⟩ := checkLoop_eq sys howns' hfuel
  rw [List.foldl_reverse] at heq hleft
  refine ⟨cells, events, ret', _, _, ?_, hgone,
    keeps_foldr sys d.osport (d.scan sys).1 (d.scan sys).2 wanted, hleft⟩
  rw [checkServers, heq]
  rfl

/-- The two calls touch no node that has been freed, and leave the given servers. -/
theorem updateDns_installed (sys : System κ) (hchain : d.cells.Chain d.servers entries)
    (hfresh : d.Fresh) (hmalloc : (given d.queryPort (parseMark sys.ulongBits mark) saddrs).length ≤
      (fromResolv entries).length + d.supply.length)
    (hmark : BAR ∉ mark) (hsaddrs : ∀ saddr ∈ saddrs, BAR ∉ saddr)
    (hlen : (mark ++ saddrs.flatMap (BAR :: ·)).length ≤ 1000)
    (hfuel : entries.length + saddrs.length ≤ fuel) :
    ∃ d' kept, updateDns sys fuel (mark ++ saddrs.flatMap (BAR :: ·)) d = .ok d' ∧
      ServersInstalled sys entries (parseMark sys.ulongBits mark) saddrs d d' kept := by
  obtain ⟨cells, supply, events, new', hset, hgone, howns⟩ :=
    setServers_eq hchain hfresh hmark hsaddrs hlen hfuel
  obtain ⟨cells', events', ret', kept, net, hcheck, hgone', hkeeps, hchecked⟩ :=
    checkServers_eq (d := renewed d entries cells new' supply events) sys howns
      ((wanted_length_le d entries _ saddrs).trans hfuel)
  have hvalues : (wanted d entries (parseMark sys.ulongBits mark) saddrs).map Prod.snd =
      (others entries).map Prod.snd ++ given d.queryPort (parseMark sys.ulongBits mark) saddrs := by
    rw [wanted, List.map_append, List.map_snd_zip]
    rwa [List.length_append, List.length_map, List.length_reverse]
  have hlist := hchecked.chains _ List.mem_cons_self
  refine ⟨_, kept, (congrArg (Except.bind · _) hset).trans ((bind_ok _ _).trans hcheck), ?_⟩
  exact {
    list := hlist
    nodup := hlist.nodup
    keeps := hkeeps
    values := hvalues
    resolv := hkeeps.resolv hvalues
    released := fun p hp hkept => (hchecked.eq_frame hkept).trans (if_pos hp)
    frame := fun p hp hkept => (hchecked.eq_frame hkept).trans (if_neg hp)
    gone := ⟨events ++ events', List.append_assoc _ _ _, fun p hmem =>
      (List.mem_append.mp hmem).elim (hgone p) (hgone' p)⟩
    once := hchain.nodup.sublist (List.filter_sublist.map Prod.fst)
    unreferenced := fun e he => by
      have hmem : e.1 ∈ (fromResolv entries).map Prod.fst := List.mem_map_of_mem he
      refine ⟨fun href => ?_, forget_ne hmem _, forget_ne hmem _⟩
      obtain ⟨ref, -, heq⟩ := List.mem_map.mp href
      exact forget_ne hmem ref heq }

def numberedSockets : System Nat where
  ulongBits := 32
  malloc := pure ()
  socket _ := do
    let fd ← getThe Nat
    modifyThe Nat (· + 1)
    return fd
  bind _ _ := pure ()
  bindToDevice _ _ := pure ()
  setMark _ _ := pure ()
  fixFd _ := pure ()
  close _ kernel := kernel
  enumerateInterfaces interfaces kernel := (interfaces, kernel)

def twoServers : List (Nat × Server) :=
  [(8, { newServer (.in4 53 0x04040808) (.in4 0 0) 0 with flags := 0 }),
    (16, newServer (.in4 53 0x0101a8c0) (.in4 0 0) 7)]

def twoServersDaemon : Daemon Nat where
  cells p :=
    if p = 8 then some ⟨{ newServer (.in4 53 0x04040808) (.in4 0 0) 0 with flags := 0 }, some 16⟩
    else if p = 16 then some ⟨newServer (.in4 53 0x0101a8c0) (.in4 0 0) 7, none⟩
    else none
  servers := some 8
  frecs := [some 16, none]
  lastServer := some 16
  srvSave := none
  interfaces := [.in4 53 0x0100007f]
  net := ⟨[], 3⟩
  supply := [24]
  events := []
  osport := false
  nowild := false
  queryPort := 0

theorem updateDns_installed_twoServers : ∃ d' kept,
    updateDns numberedSockets 5 (("0x100b" : CString) ++
        [("1.2.3.4" : CString), ("none" : CString), ("fe80::1" : CString)].flatMap (BAR :: ·))
      twoServersDaemon = .ok d' ∧
    ServersInstalled numberedSockets twoServers (parseMark 32 ("0x100b" : CString))
      [("1.2.3.4" : CString), ("none" : CString), ("fe80::1" : CString)] twoServersDaemon d' kept :=
  updateDns_installed numberedSockets ⟨rfl, _, rfl, rfl, _, rfl, rfl⟩ ⟨by decide, by decide⟩
    (by decide +kernel) (by decide +kernel) (by decide +kernel) (by decide +kernel) (by decide)

end Installation

end G361FPlatform.Dnsmasq
