import G361FPlatform.Qp.EmitLaws

namespace G361FPlatform.Qp

open Library

/-- `decodeQP` of a `len` that may be negative; there is no result where `new byte[len + 1]` throws
`NegativeArraySizeException`. -/
def decodeQPInt (nl src : List UInt8) (len : Int) : Option (Except QpError (List UInt8)) :=
  if len + 1 < 0 then none else some (decodeQP nl (some src) len.toNat)

/-- `decodeQP` returns at most `len` bytes or throws `XDSMimeException`, and does so whatever is
behind the first `len` bytes, if anything is. -/
def Robust (nl src : List UInt8) (len : Int) : Prop :=
  ((∃ res, decodeQPInt nl src len = some (.ok res) ∧ res.length ≤ len) ∨
    ∃ code, decodeQPInt nl src len = some (.error (.invalidCode code))) ∧
  ∀ rest, decodeQPInt nl (src.take len.toNat ++ rest) len = decodeQPInt nl src len

/-- A sequence of bytes, soft line breaks and codes. -/
inductive Whole : List UInt8 → Prop
  | nil : Whole []
  | byte {b d} : b ≠ EQ → Whole d → Whole (b :: d)
  | soft {b d} : b = LF ∨ b = CR → Whole d → Whole (EQ :: b :: d)
  | code {b b' d} : (digit b).isSome → (digit b').isSome → Whole d → Whole (EQ :: b :: b' :: d)

/-- The text ends in the midst of a code, or with a CR that a LF could follow. -/
def CutShort (d : List UInt8) : Prop :=
  ∃ front tail, Whole front ∧ d = front ++ tail ∧ (tail = [EQ] ∨ tail = [CR] ∨ ∃ b, b ≠ LF ∧ tail = [EQ, b])

section

variable {b b' : UInt8} {d : List UInt8}

theorem not_cutShort_nil : ¬CutShort [] := by
  rintro ⟨front, tail, -, hd, htail⟩
  obtain ⟨-, rfl⟩ := List.append_eq_nil_iff.mp hd.symm
  rcases htail with h | h | ⟨b, -, h⟩ <;> cases h

theorem cutShort_byte (hb : b ≠ EQ) (hd : b ≠ CR ∨ d ≠ []) : CutShort (b :: d) ↔ CutShort d := by
  constructor
  · rintro ⟨front, tail, hfront, heq, htail⟩
    cases hfront with
    | nil =>
      rw [List.nil_append] at heq
      subst heq
      rcases htail with h | h | ⟨b', -, h⟩
      · exact absurd (List.cons.inj h).1 hb
      · obtain ⟨rfl, rfl⟩ := List.cons.inj h
        exact absurd rfl (hd.resolve_left (not_not_intro rfl))
      · exact absurd (List.cons.inj h).1 hb
    | byte _ hfront =>
      obtain ⟨-, rfl⟩ := List.cons.inj heq
      exact ⟨_, tail, hfront, rfl, htail⟩
    | soft _ _ => exact absurd (List.cons.inj heq).1 hb
    | code _ _ _ => exact absurd (List.cons.inj heq).1 hb
  · rintro ⟨front, tail, hfront, rfl, htail⟩
    exact ⟨b :: front, tail, hfront.byte hb, rfl, htail⟩

theorem cutShort_soft (hb : b = LF ∨ b = CR) (hd : b = LF ∨ d ≠ []) :
    CutShort (EQ :: b :: d) ↔ CutShort d := by
  constructor
  · rintro ⟨front, tail, hfront, heq, htail⟩
    cases hfront with
    | nil =>
      rw [List.nil_append] at heq
      subst heq
      rcases htail with h | h | ⟨b', hb', h⟩
      · cases h
      · cases h
      · cases h
        rcases hd with rfl | hd
        · exact absurd rfl hb'
        · exact absurd rfl hd
    | byte hne _ => exact absurd (List.cons.inj heq).1.symm hne
    | soft _ hfront =>
      cases heq
      exact ⟨_, tail, hfront, rfl, htail⟩
    | code hdigit _ _ =>
      cases heq
      rcases hb with rfl | rfl <;> cases hdigit
  · rintro ⟨front, tail, hfront, rfl, htail⟩
    exact ⟨EQ :: b :: front, tail, hfront.soft hb, rfl, htail⟩

theorem cutShort_code (hb : (digit b).isSome) (hb' : (digit b').isSome) :
    CutShort (EQ :: b :: b' :: d) ↔ CutShort d := by
  constructor
  · rintro ⟨front, tail, hfront, heq, htail⟩
    cases hfront with
    | nil =>
      rw [List.nil_append] at heq
      subst heq
      rcases htail with h | h | ⟨b', -, h⟩ <;> cases h
    | byte hne _ => exact absurd (List.cons.inj heq).1.symm hne
    | soft hline _ =>
      obtain rfl := (List.cons.inj (List.cons.inj heq).2).1
      rcases hline with rfl | rfl <;> cases hb
    | code _ _ hfront =>
      cases heq
      exact ⟨_, tail, hfront, rfl, htail⟩
  · rintro ⟨front, tail, hfront, rfl, htail⟩
    exact ⟨EQ :: b :: b' :: front, tail, hfront.code hb hb', rfl, htail⟩

theorem not_cutShort_invalid (hb : ¬(b = LF ∨ b = CR)) (hdigits : ¬((digit b).isSome ∧ (digit b').isSome)) :
    ¬CutShort (EQ :: b :: b' :: d) := by
  rintro ⟨front, tail, hfront, heq, htail⟩
  cases hfront with
  | nil =>
    rw [List.nil_append] at heq
    subst heq
    rcases htail with h | h | ⟨b', -, h⟩ <;> cases h
  | byte hne _ => exact absurd (List.cons.inj heq).1.symm hne
  | soft hline _ =>
    obtain rfl := (List.cons.inj (List.cons.inj heq).2).1
    exact hb hline
  | code hdigit hdigit' _ =>
    cases heq
    exact hdigits ⟨hdigit, hdigit'⟩

end

/-- What the decoder finds at the head of a text: a token that it takes, with the text behind it
no more and no less cut short, bytes that are no code, or too little. -/
inductive Scan (nl d : List UInt8) : Prop
  | token (tok d' : List UInt8) : d = tok ++ d' → 0 < tok.length → (CutShort d ↔ CutShort d') →
      (∀ (size : Nat) (s : DecodeState), s.res.length < size → s.last ≤ s.res.length →
        ∃ s', s'.res.length ≤ s.res.length + 1 ∧ s'.last ≤ s'.res.length ∧
          ∀ p rest, decodeStep nl (p ++ (d ++ rest)) size p.length s = .ok (p.length + tok.length, s')) →
      Scan nl d
  | invalid (code : List UInt8) : ¬CutShort d →
      (∀ size s p rest, decodeStep nl (p ++ (d ++ rest)) size p.length s = .error (.invalidCode code)) →
      Scan nl d
  | cut : CutShort d →
      (∀ size s p, decodeStep nl (p ++ d) size p.length s = .error .arrayIndexOutOfBounds) → Scan nl d

section

variable {b : UInt8} {d : List UInt8}

theorem at_end (p : List UInt8) : at_ p p.length = .error .arrayIndexOutOfBounds := by
  rw [at_, List.getElem?_eq_none (Nat.le_refl _)]

theorem at_end_succ (p : List UInt8) (b : UInt8) :
    at_ (p ++ [b]) (p.length + 1) = .error .arrayIndexOutOfBounds := by
  have h := at_end (p ++ [b])
  rwa [List.length_append] at h

theorem at_end_succ_succ (p : List UInt8) (b b' : UInt8) :
    at_ (p ++ [b, b']) (p.length + 2) = .error .arrayIndexOutOfBounds := by
  have h := at_end (p ++ [b, b'])
  rwa [List.length_append] at h

theorem scan_lit (nl : List UInt8) (hb : b ≠ EQ ∧ b ≠ LF ∧ b ≠ CR) (d : List UInt8) :
    Scan nl (b :: d) := by
  refine .token [b] d rfl Nat.one_pos (cutShort_byte hb.1 (.inl hb.2.2)) fun size s hroom hlast => ?_
  refine ⟨_, ?_, ?_, fun p rest => decodeStep_lit nl p (d ++ rest) hb hroom⟩
  · exact Nat.le_of_eq List.length_append
  · dsimp only
    rw [List.length_append, List.length_singleton]
    split <;> omega

theorem scan_break {nl : List UInt8} (hnl : nl.length = 1) (tok : List UInt8) (hpos : 0 < tok.length)
    (hcut : CutShort (tok ++ d) ↔ CutShort d) (ch : UInt8) (hch : ch = LF ∨ ch = CR)
    (hhead : ∃ tl, tok = ch :: tl)
    (hnext : ∀ p rest, (if ch = CR then (at_ (p ++ (tok ++ d ++ rest)) (p.length + 1)).map fun b =>
      if b = LF then p.length + 1 + 1 else p.length + 1 else .ok (p.length + 1)) =
        (.ok (p.length + tok.length) : Except QpError Nat)) : Scan nl (tok ++ d) := by
  refine .token tok d rfl hpos hcut fun size s hroom hlast => ?_
  have hfits : s.last + nl.length ≤ size := by omega
  refine ⟨{ s with res := s.res.take s.last ++ nl }.mark, ?_, Nat.le_refl _, fun p rest => ?_⟩
  · simp only [DecodeState.mark, List.length_append, List.length_take]
    omega
  · have hne : ch ≠ EQ := by rcases hch with rfl | rfl <;> decide
    obtain ⟨tl, rfl⟩ := hhead
    have hat : at_ (p ++ (ch :: tl ++ d ++ rest)) p.length = .ok ch := at_append p _ ch
    rw [decodeStep, hat, bind_ok, if_neg hne, if_pos hch, decodeBreak, hnext, bind_ok, if_pos hfits]

theorem decodeStep_eq (nl p d : List UInt8) (size : Nat) (s : DecodeState) :
    decodeStep nl (p ++ EQ :: d) size p.length s = decodeCode (p ++ EQ :: d) size (p.length + 1) s := by
  rw [decodeStep, at_append, bind_ok, if_pos rfl]

theorem scan_soft (nl tok : List UInt8) (hpos : 0 < tok.length)
    (hcut : CutShort (tok ++ d) ↔ CutShort d)
    (hstep : ∀ size s p rest, decodeStep nl (p ++ (tok ++ d ++ rest)) size p.length s =
      .ok (p.length + tok.length, s.mark)) : Scan nl (tok ++ d) :=
  .token tok d rfl hpos hcut fun size s _ _ =>
    ⟨s.mark, Nat.le_succ _, Nat.le_refl _, fun p rest => hstep size s p rest⟩

theorem decodeStep_digits {b' : UInt8} {hi lo : Nat} (nl : List UInt8) (hb : ¬(b = LF ∨ b = CR))
    (hhi : digit b = some hi) (hlo : digit b' = some lo) (p d : List UInt8) (size : Nat) (s : DecodeState) :
    decodeStep nl (p ++ EQ :: b :: b' :: d) size p.length s =
      (s.push size (UInt8.ofNat (hi <<< 4 ||| lo))).map fun s => (p.length + 3, s.mark) := by
  rw [decodeStep_eq, decodeCode, at_append_succ, bind_ok, if_neg hb, at_append_succ_succ, bind_ok, hhi, hlo]

theorem decodeStep_invalid {b' : UInt8} (nl : List UInt8) (hb : ¬(b = LF ∨ b = CR))
    (h : digit b = none ∨ digit b' = none) (p d : List UInt8) (size : Nat) (s : DecodeState) :
    decodeStep nl (p ++ EQ :: b :: b' :: d) size p.length s = .error (.invalidCode [EQ, b, b']) := by
  rw [decodeStep_eq, decodeCode, at_append_succ, bind_ok, if_neg hb, at_append_succ_succ, bind_ok]
  rcases h with h | h
  · rw [h]
  · rw [h]
    cases digit b <;> rfl

theorem scan_code (nl : List UInt8) (hb : ¬(b = LF ∨ b = CR)) (b' : UInt8) (d : List UInt8) :
    Scan nl (EQ :: b :: b' :: d) := by
  cases hdigit : digit b with
  | none =>
    refine .invalid [EQ, b, b'] (not_cutShort_invalid hb fun h => ?_) fun size s p rest => ?_
    · rw [hdigit] at h
      cases h.1
    · exact decodeStep_invalid nl hb (.inl hdigit) p (d ++ rest) size s
  | some hi =>
    cases hdigit' : digit b' with
    | none =>
      refine .invalid [EQ, b, b'] (not_cutShort_invalid hb fun h => ?_) fun size s p rest => ?_
      · rw [hdigit'] at h
        cases h.2
      · exact decodeStep_invalid nl hb (.inr hdigit') p (d ++ rest) size s
    | some lo =>
      refine .token [EQ, b, b'] d rfl (Nat.succ_pos 2) (cutShort_code ?_ ?_) fun size s hroom hlast => ?_
      · rw [hdigit]
        rfl
      · rw [hdigit']
        rfl
      · refine ⟨DecodeState.mark { s with res := s.res ++ [UInt8.ofNat (hi <<< 4 ||| lo)] }, ?_, Nat.le_refl _,
          fun p rest => ?_⟩
        · simp only [DecodeState.mark, List.length_append, List.length_singleton]
          exact Nat.le_refl _
        · refine (decodeStep_digits nl hb hdigit hdigit' p (d ++ rest) size s).trans ?_
          rw [push_eq hroom, map_ok]
          rfl

theorem scan_sign (nl d : List UInt8) : Scan nl (EQ :: d) := by
  match d with
  | [] =>
    refine .cut ⟨[], _, .nil, rfl, .inl rfl⟩ fun size s p => ?_
    rw [decodeStep_eq, decodeCode, at_end_succ]
    rfl
  | b :: d =>
    by_cases hline : b = LF ∨ b = CR
    case neg =>
      match d with
      | [] =>
        refine .cut ⟨[], _, .nil, rfl, .inr (.inr ⟨b, fun h => hline (.inl h), rfl⟩)⟩ fun size s p => ?_
        rw [decodeStep_eq, decodeCode, at_append_succ, bind_ok, if_neg hline, at_end_succ_succ]
        rfl
      | b' :: d => exact scan_code nl hline b' d
    by_cases hlf : b = LF
    · subst hlf
      refine scan_soft nl [EQ, LF] (Nat.succ_pos 1) (cutShort_soft hline (.inl rfl)) fun size s p rest => ?_
      change decodeStep nl (p ++ EQ :: LF :: (d ++ rest)) size p.length s = _
      rw [decodeStep_eq, decodeCode, at_append_succ, bind_ok, if_pos hline, if_neg (by decide)]
      rfl
    obtain rfl := hline.resolve_left hlf
    match d with
    | [] =>
      refine .cut ⟨[], _, .nil, rfl, .inr (.inr ⟨CR, hlf, rfl⟩)⟩ fun size s p => ?_
      rw [decodeStep_eq, decodeCode, at_append_succ, bind_ok, if_pos hline, if_pos rfl, at_end_succ_succ]
      rfl
    | b :: d =>
      have hstep : ∀ size s p rest, decodeStep nl (p ++ EQ :: CR :: b :: (d ++ rest)) size p.length s =
          .ok (if b = LF then p.length + 3 else p.length + 2, s.mark) := by
        intro size s p rest
        rw [decodeStep_eq, decodeCode, at_append_succ, bind_ok, if_pos hline, if_pos rfl,
          at_append_succ_succ, map_ok]
      by_cases hlf' : b = LF
      · subst hlf'
        refine scan_soft nl [EQ, CR, LF] (d := d) (Nat.succ_pos 2) ?_ fun size s p rest => ?_
        · exact (cutShort_soft hline (.inr (List.cons_ne_nil _ _))).trans
            (cutShort_byte (by decide) (.inl (by decide)))
        · exact (hstep size s p rest).trans (by rw [if_pos rfl]; rfl)
      · refine scan_soft nl [EQ, CR] (d := b :: d) (Nat.succ_pos 1)
          (cutShort_soft hline (.inr (List.cons_ne_nil _ _))) fun size s p rest => ?_
        exact (hstep size s p rest).trans (by rw [if_neg hlf']; rfl)

theorem scan_cr {nl : List UInt8} (hnl : nl.length = 1) (d : List UInt8) : Scan nl (CR :: d) := by
  have heq : CR ≠ EQ := by decide
  match d with
  | [] =>
    refine .cut ⟨[], _, .nil, rfl, .inr (.inl rfl)⟩ fun size s p => ?_
    rw [decodeStep, at_append, bind_ok, if_neg heq, if_pos (.inr rfl), decodeBreak, if_pos rfl, at_end_succ]
    rfl
  | b :: d =>
    have hat : ∀ p rest : List UInt8, at_ (p ++ (CR :: b :: d ++ rest)) (p.length + 1) = .ok b :=
      fun p rest => at_append_succ p (d ++ rest) CR b
    by_cases hlf : b = LF
    · subst hlf
      refine scan_break hnl [CR, LF] (d := d) (Nat.succ_pos 1) ?_ CR (.inr rfl) ⟨_, rfl⟩ fun p rest => ?_
      · exact (cutShort_byte heq (.inr (List.cons_ne_nil _ _))).trans
          (cutShort_byte (by decide) (.inl (by decide)))
      · rw [if_pos rfl]
        exact (congrArg (Except.map _) (hat p rest)).trans (by rw [map_ok, if_pos rfl]; rfl)
    · refine scan_break hnl [CR] (d := b :: d) (Nat.succ_pos 0)
        (cutShort_byte heq (.inr (List.cons_ne_nil _ _))) CR (.inr rfl) ⟨_, rfl⟩ fun p rest => ?_
      rw [if_pos rfl]
      exact (congrArg (Except.map _) (hat p rest)).trans (by rw [map_ok, if_neg hlf]; rfl)

theorem scan {nl : List UInt8} (hnl : nl.length = 1) (hd : d ≠ []) : Scan nl d := by
  obtain ⟨b, d, rfl⟩ := List.exists_cons_of_ne_nil hd
  by_cases heq : b = EQ
  · rw [heq]
    exact scan_sign nl d
  by_cases hcr : b = CR
  · rw [hcr]
    exact scan_cr hnl d
  by_cases hlf : b = LF
  · subst hlf
    refine scan_break hnl [LF] (d := d) (Nat.succ_pos 0) (cutShort_byte heq (.inl hcr)) LF (.inl rfl) ⟨_, rfl⟩
      fun p rest => ?_
    rw [if_neg hcr]
    rfl
  · exact scan_lit nl ⟨heq, hlf, hcr⟩ d

theorem decodeLoop_error {nl src : List UInt8} {len i : Nat} {s : DecodeState} {e : QpError} (hi : i < len)
    (h : decodeStep nl src (len + 1) i s = .error e) : decodeLoop nl src len i s = .error e := by
  rw [decodeLoop, if_pos hi]
  split
  next heq =>
    rw [h] at heq
    cases heq
    rfl
  next heq =>
    rw [h] at heq
    cases heq

/-- The decoder ends well on a text that is not cut short, whatever is behind it, and runs off the
end of one that is. -/
theorem decodeLoop_scan {nl : List UInt8} (hnl : nl.length = 1) (d p : List UInt8) (s : DecodeState)
    (hres : s.res.length ≤ p.length) (hlast : s.last ≤ s.res.length) :
    (¬CutShort d → ∃ r, (∀ rest, decodeLoop nl (p ++ (d ++ rest)) (p.length + d.length) p.length s = r) ∧
      ((∃ s', r = .ok s' ∧ s'.res.length ≤ p.length + d.length) ∨ ∃ code, r = .error (.invalidCode code))) ∧
    (CutShort d → decodeLoop nl (p ++ d) (p.length + d.length) p.length s = .error .arrayIndexOutOfBounds) := by
  induction hn : d.length using Nat.strongRecOn generalizing d p s with
  | _ n ih =>
    subst hn
    by_cases hd : d = []
    · subst hd
      refine ⟨fun _ => ⟨.ok s, fun rest => ?_, .inl ⟨s, rfl, hres⟩⟩, fun hcut => absurd hcut not_cutShort_nil⟩
      rw [decodeLoop, if_neg (by simp)]
    have hpos := List.length_pos_iff.mpr hd
    cases scan hnl hd with
    | cut hcut hstep =>
      refine ⟨fun hnot => absurd hcut hnot, fun _ => decodeLoop_error (by omega) (hstep _ s p)⟩
    | invalid code hnot hstep =>
      refine ⟨fun _ => ⟨_, fun rest => decodeLoop_error (by omega) (hstep _ s p rest), .inr ⟨code, rfl⟩⟩,
        fun hcut => absurd hcut hnot⟩
    | token tok d' heq htok hcut hstep =>
      subst heq
      obtain ⟨s', hres', hlast', hnext⟩ := hstep (p.length + (tok ++ d').length + 1) s (by omega) hlast
      have hlen : p.length + (tok ++ d').length = (p ++ tok).length + d'.length := by
        simp only [List.length_append]
        omega
      have hloop : ∀ rest, decodeLoop nl (p ++ (tok ++ d' ++ rest)) (p.length + (tok ++ d').length) p.length s =
          decodeLoop nl (p ++ tok ++ (d' ++ rest)) ((p ++ tok).length + d'.length) (p ++ tok).length s' := by
        intro rest
        have hstart : p.length + tok.length = (p ++ tok).length := List.length_append.symm
        rw [decodeLoop_step nl (by omega) (hnext p rest), hlen, hstart, List.append_assoc tok,
          ← List.append_assoc p]
      obtain ⟨hwell, hoff⟩ := ih d'.length (by rw [List.length_append]; omega) d' (p ++ tok) s'
        (by rw [List.length_append]; omega) hlast' rfl
      rw [hcut]
      constructor
      · intro hnot
        obtain ⟨r, hr, hcases⟩ := hwell hnot
        refine ⟨r, fun rest => (hloop rest).trans (hr rest), ?_⟩
        rwa [hlen]
      · intro hshort
        have hnil := hloop []
        rw [List.append_nil, List.append_nil] at hnil
        exact hnil.trans (hoff hshort)

end

/-- The decoder is robust exactly on the texts that are not cut short. -/
theorem robust_iff (sep : UInt8) (src : List UInt8) (len : Int) (hlen : len ≤ src.length) :
    Robust [sep] src len ↔ 0 ≤ len ∧ ¬CutShort (src.take len.toNat) := by
  by_cases hneg : len < 0
  · refine iff_of_false ?_ fun h => absurd h.1 (by omega)
    rintro ⟨⟨res, hok, hle⟩ | ⟨code, hcode⟩, -⟩
    · omega
    · unfold decodeQPInt at hcode
      split at hcode
      · cases hcode
      · have hzero : len.toNat = 0 := by omega
        rw [hzero, decodeQP, decodeLoop, if_neg (Nat.lt_irrefl 0)] at hcode
        cases hcode
  have hd : (src.take len.toNat).length = len.toNat := List.length_take_of_le (by omega)
  have hint : ∀ rest, decodeQPInt [sep] (src.take len.toNat ++ rest) len =
      some ((decodeLoop [sep] (src.take len.toNat ++ rest) len.toNat 0 ⟨[], 0⟩).map DecodeState.res) :=
    fun rest => by rw [decodeQPInt, if_neg (by omega), decodeQP]
  obtain ⟨hwell, hoff⟩ := @decodeLoop_scan [sep] rfl (src.take len.toNat) [] ⟨[], 0⟩ (Nat.le_refl _)
    (Nat.le_refl _)
  simp only [List.nil_append, List.length_nil, Nat.zero_add, hd] at hwell hoff
  rw [and_iff_right (by omega)]
  constructor
  · rintro ⟨hret, hrest⟩ hcut
    have hnil := hrest []
    rw [hint, List.append_nil, hoff hcut] at hnil
    rcases hret with ⟨res, hok, -⟩ | ⟨code, hcode⟩
    · rw [← hnil] at hok
      cases hok
    · rw [← hnil] at hcode
      cases hcode
  · intro hnot
    obtain ⟨r, hr, hcases⟩ := hwell hnot
    have hsrc : decodeQPInt [sep] src len = some (r.map DecodeState.res) := by
      have := hint (src.drop len.toNat)
      rwa [hr, List.take_append_drop] at this
    rw [Robust, hsrc]
    constructor
    · rcases hcases with ⟨s', rfl, hle⟩ | ⟨code, rfl⟩
      · exact .inl ⟨s'.res, rfl, by omega⟩
      · exact .inr ⟨code, rfl⟩
    · intro rest
      rw [hint, hr]

/-- A soft line break and a code, with another byte behind them. -/
theorem robust_softBreak : Robust [LF] [EQ, CR, LF, EQ, 65, 66, CR] 6 := by
  refine (robust_iff LF [EQ, CR, LF, EQ, 65, 66, CR] 6 (by decide)).mpr ⟨by decide, ?_⟩
  rw [show [EQ, CR, LF, EQ, 65, 66, CR].take (6 : Int).toNat = [EQ, CR, LF, EQ, 65, 66] from rfl,
    cutShort_soft (.inr rfl) (.inr (List.cons_ne_nil _ _)), cutShort_byte (by decide) (.inl (by decide)),
    cutShort_code (by decide) (by decide)]
  exact not_cutShort_nil

/-- A text that ends with the sign of a code. -/
theorem not_robust_sign : ¬Robust [LF] [65, EQ] 2 := by
  have hthrows : (decodeQPInt [LF] [65, EQ] 2).map (fun r =>
      match r with
      | .error .arrayIndexOutOfBounds => true
      | _ => false) = some true := by
    decide +kernel
  rintro ⟨⟨res, hok, -⟩ | ⟨code, hcode⟩, -⟩
  · rw [hok] at hthrows
    cases hthrows
  · rw [hcode] at hthrows
    cases hthrows

end G361FPlatform.Qp
