import G361FPlatform.Dnsmasq.ListenerLaws

namespace G361FPlatform.Dnsmasq

open Library CString

section

variable {c rest : List UInt8}

theorem consume_fst {m n : Nat} {bytes : List UInt8} (hm : bytes.length ≤ m) (hn : bytes.length ≤ n)
    (retcode retcode' : Int) : (consume m bytes retcode).1 = (consume n bytes retcode').1 := by
  induction m generalizing n bytes retcode retcode' with
  | zero =>
    rw [List.eq_nil_of_length_eq_zero (Nat.le_zero.mp hm)]
    cases n <;> rfl
  | succ m ih =>
    cases bytes with
    | nil => cases n <;> rfl
    | cons b bytes =>
      obtain ⟨n, rfl⟩ : ∃ n', n = n' + 1 := ⟨n - 1, by rw [List.length_cons] at hn; omega⟩
      rw [List.length_cons] at hm hn
      rw [consume, consume]
      dsimp only
      rw [runCommand_fst, runCommand_fst]
      congr 1
      apply ih
      · rw [List.drop_succ_cons, List.length_drop]
        omega
      · rw [List.drop_succ_cons, List.length_drop]
        omega

theorem calls_nil : calls [] = [] := rfl

theorem calls_eq (h : rest ≠ []) : calls rest = dispatch (rest.takeWhile (· ≠ 0)) ++
    calls (rest.drop ((rest.takeWhile (· ≠ 0)).length + 1)) := by
  cases rest with
  | nil => exact absurd rfl h
  | cons b bytes =>
    unfold calls checkAndroidListeners
    dsimp only
    rw [List.length_cons, consume]
    dsimp only
    rw [runCommand_fst]
    congr 1
    apply consume_fst
    · rw [List.drop_succ_cons, List.length_drop]
      omega
    · exact Nat.le_refl _

theorem takeWhile_string (h : 0 ∉ c) : c.takeWhile (· ≠ 0) = c := by
  induction c with
  | nil => rfl
  | cons b c ih =>
    rw [List.mem_cons, not_or] at h
    rw [List.takeWhile_cons, if_pos (by simpa using Ne.symm h.1), ih h.2]

theorem takeWhile_terminated (h : 0 ∉ c) (rest : List UInt8) :
    (c ++ 0 :: rest).takeWhile (· ≠ 0) = c := by
  induction c with
  | nil => rfl
  | cons b c ih =>
    rw [List.mem_cons, not_or] at h
    rw [List.cons_append, List.takeWhile_cons, if_pos (by simpa using Ne.symm h.1), ih h.2]

theorem calls_string (h : 0 ∉ c) : calls c = dispatch c := by
  by_cases hc : c = []
  · rw [hc, calls_nil, dispatch_nil]
  · rw [calls_eq hc, takeWhile_string h, List.drop_eq_nil_of_le (Nat.le_succ _), calls_nil, List.append_nil]

theorem calls_terminated (h : 0 ∉ c) (rest : List UInt8) :
    calls (c ++ 0 :: rest) = dispatch c ++ calls rest := by
  rw [calls_eq (by simp), takeWhile_terminated h]
  congr 2
  rw [← List.singleton_append, ← List.append_assoc]
  exact List.drop_left' (by simp)

end

theorem calls_append (w z : List UInt8) : calls ((w ++ [0]) ++ z) = calls (w ++ [0]) ++ calls z := by
  induction hn : w.length using Nat.strongRecOn generalizing w with
  | _ n ih =>
    by_cases hzero : (0 : UInt8) ∈ w
    · obtain ⟨c, w', rfl, hc⟩ := List.eq_append_cons_of_mem hzero
      have hlt : w'.length < n := by
        rw [← hn, List.length_append, List.length_cons]
        omega
      have hnext := ih _ hlt w' rfl
      rw [List.append_assoc] at hnext
      rw [List.append_assoc, List.append_assoc, List.cons_append, calls_terminated hc, hnext, List.append_assoc,
        List.cons_append, calls_terminated hc, List.append_assoc]
    · rw [List.append_assoc, List.singleton_append, calls_terminated hzero, calls_terminated hzero, calls_nil,
        List.append_nil]

def stream (cmds : List CString) : List UInt8 := cmds.flatMap (· ++ [0])

def piecesOf (before : List CString) (c : CString) (reads : List (List UInt8)) : List (List UInt8) :=
  (takeParts c.length (dropParts (stream before).length reads)).filter (· ≠ [])

/-- The reads make the calls of the commands, and over the bytes of each command those of this
command. -/
structure Framed (cmds : List CString) (reads : List (List UInt8)) : Prop where
  whole : reads.flatMap calls = cmds.flatMap fun c => calls (c ++ [0])
  each : ∀ before c after, cmds = before ++ c :: after →
    (takeParts (c.length + 1) (dropParts (stream before).length reads)).flatMap calls = calls (c ++ [0])

/-- No read ends inside a command, but for one that calls nothing, and in no part does. -/
def Uncut (cmds : List CString) (reads : List (List UInt8)) : Prop :=
  ∀ before c after, cmds = before ++ c :: after →
    (piecesOf before c reads).length ≤ 1 ∨ ¬IsCommand c ∧ ∀ p ∈ piecesOf before c reads, ¬IsCommand p

theorem dispatch_parts_iff {c : CString} {xs : List (List UInt8)} (h : xs.flatten = c) :
    xs.flatMap dispatch = dispatch c ↔ (xs.filter (· ≠ [])).length ≤ 1 ∨
      ¬IsCommand c ∧ ∀ p ∈ xs.filter (· ≠ []), ¬IsCommand p := by
  have hflatten : (xs.filter (· ≠ [])).flatten = c := by
    rw [← h, ← List.flatMap_id, ← List.flatMap_id]
    exact flatMap_filter_ne_nil rfl xs
  rw [← flatMap_filter_ne_nil dispatch_nil xs]
  have hne : ∀ p ∈ xs.filter (· ≠ []), p ≠ [] := fun p hp => by simpa using (List.mem_filter.mp hp).2
  generalize xs.filter (· ≠ []) = ps at hflatten hne
  subst hflatten
  constructor
  · intro heq
    by_cases hcommand : IsCommand ps.flatten
    · have hcalls : ps.flatMap dispatch ≠ [] := by
        rw [heq]
        exact fun hnil => (dispatch_eq_nil_iff _).mp hnil hcommand
      obtain ⟨as, p, bs, rfl, has, hp⟩ := exists_first_flatMap hcalls
      have hhead : (dispatch p).head? = (dispatch (as ++ p :: bs).flatten).head? := by
        rw [← heq, List.flatMap_append, has, List.nil_append, List.flatMap_cons, List.head?_append_of_ne_nil _ hp]
      have hsplit : (as ++ p :: bs).flatten = as.flatten ++ p ++ bs.flatten := by
        rw [List.flatten_append, List.flatten_cons, List.append_assoc]
      obtain ⟨hx, hy⟩ := whole_of_dispatch hsplit hp hhead
      have hnil : ∀ qs : List (List UInt8), (∀ q ∈ qs, q ≠ []) → qs.flatten = [] → qs = [] := by
        intro qs hqs hflat
        cases qs with
        | nil => rfl
        | cons q qs => exact absurd (List.flatten_eq_nil_iff.mp hflat q List.mem_cons_self) (hqs q List.mem_cons_self)
      rw [hnil as (fun q hq => hne q (List.mem_append_left _ hq)) hx,
        hnil bs (fun q hq => hne q (List.mem_append_right _ (List.mem_cons_of_mem _ hq))) hy]
      exact .inl (Nat.le_refl _)
    · rw [(dispatch_eq_nil_iff _).mpr hcommand, List.flatMap_eq_nil_iff] at heq
      exact .inr ⟨hcommand, fun p hp => (dispatch_eq_nil_iff p).mp (heq p hp)⟩
  · rintro (hlen | ⟨hcommand, hparts⟩)
    · match ps, hlen with
      | [], _ => rfl
      | [p], _ => simp
    · rw [(dispatch_eq_nil_iff _).mpr hcommand, List.flatMap_eq_nil_iff]
      exact fun p hp => (dispatch_eq_nil_iff p).mpr (hparts p hp)

theorem calls_parts {c : CString} (hc : 0 ∉ c) {xs : List (List UInt8)} {rest : List UInt8}
    (h : xs.flatten = c ++ 0 :: rest) :
    (takeParts (c.length + 1) xs).flatMap calls = (takeParts c.length xs).flatMap dispatch := by
  induction xs generalizing c with
  | nil => rfl
  | cons x xs ih =>
    rw [takeParts, takeParts, List.flatMap_cons, List.flatMap_cons]
    rcases Nat.lt_or_ge c.length x.length with hlong | hshort
    · have hx : x.take c.length = c := by
        have := congrArg (List.take c.length) h
        rwa [List.flatten_cons, List.take_append_of_le_length (Nat.le_of_lt hlong), List.take_left] at this
      have hx' : x.take (c.length + 1) = c ++ [0] := by
        have := congrArg (List.take (c.length + 1)) h
        rw [List.flatten_cons, List.take_append_of_le_length hlong, List.take_append, List.take_of_length_le (Nat.le_succ _),
          Nat.add_sub_cancel_left] at this
        exact this
      rw [hx, hx', calls_terminated hc, calls_nil, List.append_nil, Nat.sub_eq_zero_of_le hlong,
        Nat.sub_eq_zero_of_le (Nat.le_of_lt hlong), flatMap_takeParts_zero calls_nil,
        flatMap_takeParts_zero dispatch_nil]
    · have hx : c = x ++ c.drop x.length := by
        have := congrArg (List.take x.length) h
        rw [List.flatten_cons, List.take_left, List.take_append_of_le_length hshort] at this
        conv_lhs => rw [← List.take_append_drop x.length c, ← this]
      have hzero : (0 : UInt8) ∉ x := fun hmem => hc (hx ▸ List.mem_append_left _ hmem)
      rw [List.take_of_length_le hshort, List.take_of_length_le (Nat.le_succ_of_le hshort), calls_string hzero]
      congr 1
      have hdrop : (0 : UInt8) ∉ c.drop x.length := fun hmem => hc (List.mem_of_mem_drop hmem)
      have hrest : xs.flatten = c.drop x.length ++ 0 :: rest := by
        rw [List.flatten_cons, hx, List.append_assoc] at h
        exact List.append_cancel_left h
      have hnext := ih hdrop hrest
      rw [List.length_drop] at hnext
      rw [← hnext]
      congr 2
      omega

section

variable {cmds : List CString} {reads : List (List UInt8)}

theorem stream_split {before after : List CString} {c : CString} :
    stream (before ++ c :: after) = stream before ++ (c ++ 0 :: stream after) := by
  simp [stream]

theorem flatten_dropParts_stream {before after : List CString} {c : CString}
    (hstream : reads.flatten = stream (before ++ c :: after)) :
    (dropParts (stream before).length reads).flatten = c ++ 0 :: stream after := by
  rw [flatten_dropParts, hstream, stream_split, List.drop_left]

theorem each_iff {before after : List CString} {c : CString} (hc : 0 ∉ c)
    (hstream : reads.flatten = stream (before ++ c :: after)) :
    (takeParts (c.length + 1) (dropParts (stream before).length reads)).flatMap calls = calls (c ++ [0]) ↔
      (piecesOf before c reads).length ≤ 1 ∨ ¬IsCommand c ∧ ∀ p ∈ piecesOf before c reads, ¬IsCommand p := by
  have hparts := flatten_dropParts_stream hstream
  rw [calls_parts hc hparts, calls_terminated hc, calls_nil, List.append_nil]
  apply dispatch_parts_iff
  rw [flatten_takeParts, hparts, List.take_left]

theorem whole_of_each (hstream : reads.flatten = stream cmds)
    (heach : ∀ before c after, cmds = before ++ c :: after →
      (takeParts (c.length + 1) (dropParts (stream before).length reads)).flatMap calls = calls (c ++ [0])) :
    reads.flatMap calls = cmds.flatMap fun c => calls (c ++ [0]) := by
  induction cmds generalizing reads with
  | nil => exact flatMap_eq_nil_of_flatten calls_nil hstream
  | cons c cmds ih =>
    have htake : reads.flatten.take (c.length + 1) = c ++ [0] := by
      rw [hstream, stream, List.flatMap_cons]
      exact List.take_left' (by simp)
    have hsplit := @flatMap_takeParts_dropParts _ _ calls calls_nil (c.length + 1) reads (by
      intro x y z heq hy
      rw [htake] at heq
      have hlast : y = y.dropLast ++ [0] := by
        have hget := congrArg List.getLast? heq
        rw [List.getLast?_append, List.getLast?_append, List.getLast?_eq_some_getLast hy] at hget
        have hzero : y.getLast hy = 0 := by simpa using hget.symm
        rw [← hzero, List.dropLast_concat_getLast]
      rw [hlast]
      exact calls_append _ z)
    have hfirst := heach [] c cmds rfl
    rw [stream, List.flatMap_nil, List.length_nil, dropParts_zero] at hfirst
    rw [hsplit, hfirst, List.flatMap_cons]
    congr 1
    refine ih ?_ fun before c' after heq => ?_
    · rw [flatten_dropParts, hstream, stream, List.flatMap_cons]
      exact List.drop_left' (by simp)
    · have hnext := heach (c :: before) c' after (by rw [heq, List.cons_append])
      rw [dropParts_dropParts]
      rw [show (stream (c :: before)).length = c.length + 1 + (stream before).length by simp [stream]; omega] at hnext
      exact hnext

/-- A stream is read right, command by command, exactly if no read ends inside a command, but for
one that calls nothing and no part of which does. -/
theorem framed_iff_uncut (hnul : ∀ c ∈ cmds, 0 ∉ c) (hstream : reads.flatten = stream cmds) :
    Framed cmds reads ↔ Uncut cmds reads := by
  constructor
  · intro h before c after heq
    subst heq
    exact (each_iff (hnul c (by simp)) hstream).mp (h.each before c after rfl)
  · intro h
    have heach : ∀ before c after, cmds = before ++ c :: after →
        (takeParts (c.length + 1) (dropParts (stream before).length reads)).flatMap calls = calls (c ++ [0]) := by
      rintro before c after rfl
      exact (each_iff (hnul c (by simp)) hstream).mpr (h before c after rfl)
    exact ⟨whole_of_each hstream heach, heach⟩

end

/-- Two commands in one read. -/
theorem framed_iff_uncut_batch :
    Framed [("update_ra|false|wlan0" : CString), ("update_dns|0|1.2.3.4" : CString)]
        [stream [("update_ra|false|wlan0" : CString), ("update_dns|0|1.2.3.4" : CString)]] ↔
      Uncut [("update_ra|false|wlan0" : CString), ("update_dns|0|1.2.3.4" : CString)]
        [stream [("update_ra|false|wlan0" : CString), ("update_dns|0|1.2.3.4" : CString)]] :=
  framed_iff_uncut (by decide) (by decide)

/-- One command in two reads: the first part is taken for the whole. -/
theorem not_framed_cut : ¬∀ (cmds : List CString) (reads : List (List UInt8)), (∀ c ∈ cmds, 0 ∉ c ∧ c.length < 1000) →
    (∀ r ∈ reads, r.length ≤ 1023) → reads.flatten = stream cmds → Framed cmds reads := by
  intro h
  have hwhole := (h [("update_ra|false|wlan0" : CString)] [("update_ra|false|wl" : CString), ("an0" : CString) ++ [0]]
    (by decide) (by decide) (by decide)).whole
  revert hwhole
  decide +kernel

end G361FPlatform.Dnsmasq
