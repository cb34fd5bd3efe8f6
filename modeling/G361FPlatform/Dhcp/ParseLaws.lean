import G361FPlatform.Dhcp.DecodeLaws
import G361FPlatform.Library.OptionList

namespace G361FPlatform.Dhcp

open Library LittleEndian

def has (code : UInt8) (n : Nat) (o : OptionEntry) : Bool := o.code = code ∧ n ≤ o.value.length

def readsType (o : OptionEntry) : Bool := o.code = OPT_MESSAGE_TYPE ∧ o.value ++ o.tail ≠ []

namespace DhcpInfo

/-- What an RFC 2132 parser makes of the options. -/
def ofOptions (opts : List OptionEntry) : DhcpInfo where
  type := (OptionList.last (has OPT_MESSAGE_TYPE 1) opts).elim 0 fun o => (o.value.getD 0 0).toUInt32
  ipaddr := 0
  gateway := (OptionList.last (has OPT_GATEWAY 4) opts).elim 0 fun o => word32At 0 o.value
  prefixLength := (OptionList.last (has OPT_SUBNET_MASK 4) opts).elim 0 fun o =>
    UInt32.ofNat (ipv4NetmaskToPrefixLength (word32At 0 o.value))
  dns1 := (OptionList.last (has OPT_DNS 4) opts).elim 0 fun o => word32At 0 o.value
  dns2 := (OptionList.last (has OPT_DNS 8) opts).elim 0 fun o => word32At 4 o.value
  serveraddr := (OptionList.last (has OPT_SERVER_ID 4) opts).elim 0 fun o => word32At 0 o.value
  lease := (OptionList.last (has OPT_LEASE_TIME 4) opts).elim 0 fun o => swap32 (word32At 0 o.value)

def decoded (info : DhcpInfo) (o : OptionEntry) : DhcpInfo where
  type := if readsType o then ((o.value ++ o.tail).getD 0 0).toUInt32 else info.type
  ipaddr := info.ipaddr
  gateway := if has OPT_GATEWAY 4 o then word32At 0 o.value else info.gateway
  prefixLength := if has OPT_SUBNET_MASK 4 o then
    UInt32.ofNat (ipv4NetmaskToPrefixLength (word32At 0 o.value)) else info.prefixLength
  dns1 := if has OPT_DNS 4 o then word32At 0 o.value else info.dns1
  dns2 := if has OPT_DNS 8 o then word32At 4 o.value else info.dns2
  serveraddr := if has OPT_SERVER_ID 4 o then word32At 0 o.value else info.serveraddr
  lease := if has OPT_LEASE_TIME 4 o then swap32 (word32At 0 o.value) else info.lease

end DhcpInfo

section

variable {opt optlen : UInt8} {x : List UInt8} {info : DhcpInfo}

theorem read32_eq {n : Nat} (h : n + 4 ≤ optlen.toNat) (hx : optlen.toNat ≤ x.length) :
    read32 (x.drop n) = .ok (word32At n (x.take optlen.toNat)) := by
  have hget : ∀ i, i < optlen.toNat → (x.take optlen.toNat).getD i 0 = x.getD i 0 := by
    intro i hi
    rw [List.getD_eq_getElem?_getD, List.getElem?_take_of_lt hi, List.getD_eq_getElem?_getD]
  rw [word32At, hget n (by omega), hget (n + 1) (by omega), hget (n + 2) (by omega),
    hget (n + 3) (by omega), DhcpMsg.take_succ_drop (show n < x.length by omega),
    DhcpMsg.take_succ_drop (show n + 1 < x.length by omega),
    DhcpMsg.take_succ_drop (show n + 2 < x.length by omega),
    DhcpMsg.take_succ_drop (show n + 3 < x.length by omega)]
  rfl

theorem has_take (hx : optlen.toNat ≤ x.length) (code : UInt8) (n : Nat) (tail : List UInt8) :
    has code n ⟨opt, x.take optlen.toNat, tail⟩ = (opt = code ∧ n ≤ optlen.toNat : Bool) := by
  rw [has, List.length_take_of_le hx]

theorem readsType_take (hpos : 0 < x.length) :
    readsType ⟨opt, x.take optlen.toNat, x.drop optlen.toNat⟩ = (opt = OPT_MESSAGE_TYPE : Bool) := by
  rw [readsType, List.take_append_drop]
  simp [List.ne_nil_of_length_pos hpos]

theorem read32_ite {n : Nat} (hx : optlen.toNat ≤ x.length) (f : UInt32 → DhcpInfo) (info : DhcpInfo) :
    (if n + 4 ≤ optlen.toNat then (read32 (x.drop n)).map f else .ok info) =
      .ok (if n + 4 ≤ optlen.toNat then f (word32At n (x.take optlen.toNat)) else info) := by
  split
  next hfits => rw [read32_eq hfits hx, map_ok]
  · rfl

theorem decodeOption_eq (hx : optlen.toNat ≤ x.length) (hpos : 0 < x.length) :
    decodeOption opt optlen x info =
      .ok (info.decoded ⟨opt, x.take optlen.toNat, x.drop optlen.toNat⟩) := by
  have h4 : 4 ≤ optlen ↔ 0 + 4 ≤ optlen.toNat := UInt8.le_iff_toNat_le
  have h8 : 8 ≤ optlen ↔ 4 + 4 ≤ optlen.toNat := UInt8.le_iff_toNat_le
  have hread : ∀ f (info : DhcpInfo), (if 4 ≤ optlen then (read32 x).map f else .ok info) =
      .ok (if 4 ≤ optlen.toNat then f (word32At 0 (x.take optlen.toNat)) else info) := by
    intro f info
    have := read32_ite (n := 0) hx f info
    rwa [List.drop_zero, ← if_congr h4 rfl rfl] at this
  have hread4 : ∀ f (info : DhcpInfo), (if 8 ≤ optlen then (read32 (x.drop 4)).map f else .ok info) =
      .ok (if 8 ≤ optlen.toNat then f (word32At 4 (x.take optlen.toNat)) else info) := by
    intro f info
    rw [if_congr h8 rfl rfl]
    exact read32_ite hx f info
  obtain ⟨type, x', rfl⟩ := List.exists_cons_of_length_pos hpos
  rw [decodeOption, DhcpInfo.decoded]
  simp only [has_take hx, readsType_take hpos, List.take_append_drop, decide_eq_true_eq, hread, hread4,
    bind_ok, List.getD_cons_zero]
  by_cases hfour : 4 ≤ optlen.toNat <;> by_cases height : 8 ≤ optlen.toNat
  all_goals
    simp only [hfour, height, and_true, and_false, if_true, if_false]
    by_cases hmask : opt = OPT_SUBNET_MASK
    · subst hmask; rfl
    by_cases hgateway : opt = OPT_GATEWAY
    · subst hgateway; rfl
    by_cases hdns : opt = OPT_DNS
    · subst hdns; rfl
    by_cases hlease : opt = OPT_LEASE_TIME
    · subst hlease; rfl
    by_cases hserver : opt = OPT_SERVER_ID
    · subst hserver; rfl
    by_cases htype : opt = OPT_MESSAGE_TYPE
    · subst htype; rfl
    simp only [hmask, hgateway, hdns, hlease, hserver, htype, if_false]

end

section

variable {opt optlen : UInt8} {x : List UInt8} {len : Nat} {info : DhcpInfo}

theorem decodeOptions_short (h : len ≤ 2) : decodeOptions x len info = .ok info := by
  rw [decodeOptions.eq_def, if_pos h]

theorem decodeOptions_pad (h : ¬len ≤ 2) :
    decodeOptions (OPT_PAD :: x) len info = decodeOptions x (len - 1) info := by
  rw [decodeOptions.eq_def, if_neg h]
  exact if_pos rfl

theorem decodeOptions_end : decodeOptions (OPT_END :: x) len info = .ok info := by
  rw [decodeOptions.eq_def]
  dsimp only
  rw [if_neg (show OPT_END ≠ OPT_PAD by decide), if_pos rfl, ite_self]

theorem decodeOptions_cut (hpad : opt ≠ OPT_PAD) (h : len - 2 < optlen.toNat) :
    decodeOptions (opt :: optlen :: x) len info = .ok info := by
  rw [decodeOptions.eq_def]
  dsimp only
  rw [if_neg hpad, if_pos h, ite_self, ite_self]

theorem decodeOptions_fits (hlen : ¬len ≤ 2) (hpad : opt ≠ OPT_PAD) (hend : opt ≠ OPT_END)
    (h : ¬len - 2 < optlen.toNat) : decodeOptions (opt :: optlen :: x) len info =
      (decodeOption opt optlen x info).bind (decodeOptions (x.drop optlen.toNat) (len - 2 - optlen.toNat)) := by
  rw [decodeOptions.eq_def, if_neg hlen]
  dsimp only
  rw [if_neg hpad, if_neg hend, if_neg h]

end

theorem DhcpInfo.decoded_bare (info : DhcpInfo) (code : UInt8) :
    info.decoded ⟨code, [], []⟩ = info := by
  simp [decoded, has, readsType]

@[elab_as_elim]
theorem walk_induction {motive : List UInt8 → Prop} (short : ∀ x, x.length ≤ 2 → motive x)
    (pad : ∀ x, 2 ≤ x.length → motive x → motive (OPT_PAD :: x))
    (stop : ∀ x, motive (OPT_END :: x))
    (cut : ∀ opt optlen x, opt ≠ OPT_PAD → opt ≠ OPT_END → x.length < optlen.toNat →
      motive (opt :: optlen :: x))
    (fits : ∀ opt optlen x, opt ≠ OPT_PAD → opt ≠ OPT_END → optlen.toNat ≤ x.length → 0 < x.length →
      motive (x.drop optlen.toNat) → motive (opt :: optlen :: x)) (x : List UInt8) : motive x := by
  induction hn : x.length using Nat.strong_induction_on generalizing x with
  | _ n ih =>
    subst hn
    match x with
    | [] => exact short [] (by simp)
    | [opt] => exact short [opt] (by simp)
    | [opt, optlen] => exact short [opt, optlen] (by simp)
    | opt :: optlen :: b :: x =>
      by_cases hpad : opt = OPT_PAD
      · subst hpad
        exact pad _ (by simp) (ih _ (by simp) _ rfl)
      by_cases hend : opt = OPT_END
      · subst hend
        exact stop _
      by_cases hcut : (b :: x).length < optlen.toNat
      · exact cut opt optlen _ hpad hend hcut
      · refine fits opt optlen _ hpad hend (Nat.not_lt.mp hcut) (by simp) (ih _ ?_ _ rfl)
        rw [List.length_drop]
        simp only [List.length_cons]
        omega

theorem decodeOptions_eq (x : List UInt8) (info : DhcpInfo) :
    decodeOptions x x.length info =
      .ok ((OptionList.parse OPT_PAD OPT_END x).foldl DhcpInfo.decoded info) := by
  induction x using walk_induction generalizing info with
  | short x h =>
    rw [decodeOptions_short h]
    match x with
    | [] => rw [OptionList.parse_nil, List.foldl_nil]
    | [opt] => rw [OptionList.parse_code, List.foldl_nil]
    | [opt, optlen] =>
      by_cases hpad : opt = OPT_PAD
      · rw [hpad, OptionList.parse_pad, OptionList.parse_code, List.foldl_nil]
      by_cases hend : opt = OPT_END
      · rw [hend, OptionList.parse_stop (by decide), List.foldl_nil]
      by_cases hcut : ([] : List UInt8).length < optlen.toNat
      · rw [OptionList.parse_cut hpad hcut, List.foldl_nil]
      · rw [OptionList.parse_fits hpad hend (Nat.not_lt.mp hcut), List.take_nil, List.drop_nil,
          OptionList.parse_nil, List.foldl_cons, DhcpInfo.decoded_bare, List.foldl_nil]
  | pad x h ih =>
    rw [OptionList.parse_pad, ← ih, decodeOptions_pad (by rw [List.length_cons]; omega), List.length_cons,
      Nat.add_sub_cancel]
  | stop x => rw [OptionList.parse_stop (by decide), List.foldl_nil, decodeOptions_end]
  | cut opt optlen x hpad hend hcut =>
    rw [OptionList.parse_cut hpad hcut, List.foldl_nil, decodeOptions_cut hpad hcut]
  | fits opt optlen x hpad hend hfits hpos ih =>
    have hlong : ¬(opt :: optlen :: x).length ≤ 2 := by rw [List.length_cons, List.length_cons]; omega
    rw [OptionList.parse_fits hpad hend hfits, List.foldl_cons, ← ih,
      decodeOptions_fits hlong hpad hend (Nat.not_lt.mpr hfits), decodeOption_eq hfits hpos, bind_ok,
      List.length_drop]
    rfl

theorem decodeOptions_take {x : List UInt8} {len : Nat} (h : len ≤ x.length) (info : DhcpInfo) :
    decodeOptions x len info =
      .ok ((OptionList.parse OPT_PAD OPT_END (x.take len)).foldl DhcpInfo.decoded info) := by
  have hlen : (x.take len).length = len := List.length_take_of_le h
  conv_lhs => rw [← List.take_append_drop len x]
  rw [decodeOptions_append len hlen, ← decodeOptions_eq, hlen]

theorem read32_of_ok {x : List UInt8} {v : UInt32} (h : read32 x = .ok v) (rest : List UInt8) :
    4 ≤ x.length ∧ read32 (x ++ rest) = .ok v := by
  match x with
  | [] | [_] | [_, _] | [_, _, _] => cases h
  | _ :: _ :: _ :: _ :: x => exact ⟨by simp, h⟩

theorem map_read32_of_ok {x : List UInt8} {f : UInt32 → DhcpInfo} {info : DhcpInfo}
    (h : (read32 x).map f = .ok info) (rest : List UInt8) :
    (read32 (x ++ rest)).map f = .ok info := by
  obtain ⟨v, hv, hinfo⟩ := map_eq_ok h
  rw [(read32_of_ok hv rest).2, map_ok, hinfo]

theorem decodeOption_of_ok {opt optlen : UInt8} {x : List UInt8} {info info' : DhcpInfo}
    (h : decodeOption opt optlen x info = .ok info') (rest : List UInt8) :
    decodeOption opt optlen (x ++ rest) info = .ok info' := by
  have hread : ∀ (x : List UInt8) (c : Prop) [Decidable c] (f : UInt32 → DhcpInfo) (info info' : DhcpInfo),
      (if c then (read32 x).map f else .ok info) = .ok info' →
        (if c then (read32 (x ++ rest)).map f else .ok info) = .ok info' := by
    intro x c _ f info info' hx
    split at hx
    next hc => rw [if_pos hc, map_read32_of_ok hx rest]
    next hc => rw [if_neg hc, hx]
  unfold decodeOption at h ⊢
  split at h
  next hopt => rw [if_pos hopt, hread _ _ _ _ _ h]
  next hopt =>
  rw [if_neg hopt]
  split at h
  next hopt => rw [if_pos hopt, hread _ _ _ _ _ h]
  next hopt =>
  rw [if_neg hopt]
  split at h
  next hopt =>
    rw [if_pos hopt]
    obtain ⟨info₁, h₁, h₂⟩ := bind_eq_ok h
    rw [hread _ _ _ _ _ h₁, bind_ok]
    split at h₂
    next h8 =>
      obtain ⟨v, hv, -⟩ := map_eq_ok h₂
      have hx : 4 ≤ x.length := by
        have := (read32_of_ok hv rest).1
        rw [List.length_drop] at this
        omega
      rw [if_pos h8, List.drop_append_of_le_length hx, map_read32_of_ok h₂ rest]
    next h8 => rw [if_neg h8, h₂]
  next hopt =>
  rw [if_neg hopt]
  split at h
  next hopt => rw [if_pos hopt, hread _ _ _ _ _ h]
  next hopt =>
  rw [if_neg hopt]
  split at h
  next hopt => rw [if_pos hopt, hread _ _ _ _ _ h]
  next hopt =>
  rw [if_neg hopt]
  split at h
  next hopt =>
    rw [if_pos hopt]
    cases x with
    | nil => cases h
    | cons type x => exact h
  next hopt => rw [if_neg hopt, h]

theorem decodeOptions_of_ok (len : Nat) {x : List UInt8} {info info' : DhcpInfo}
    (h : decodeOptions x len info = .ok info') (rest : List UInt8) :
    decodeOptions (x ++ rest) len info = .ok info' := by
  induction len using Nat.strong_induction_on generalizing x info rest with
  | _ len ih =>
    by_cases hlen : len ≤ 2
    · rw [decodeOptions_short hlen] at h ⊢
      exact h
    match x with
    | [] =>
      rw [decodeOptions.eq_def, if_neg hlen] at h
      cases h
    | opt :: x =>
      rw [List.cons_append]
      by_cases hpad : opt = OPT_PAD
      · subst hpad
        rw [decodeOptions_pad hlen] at h ⊢
        exact ih (len - 1) (by omega) h rest
      by_cases hend : opt = OPT_END
      · subst hend
        rw [decodeOptions_end] at h ⊢
        exact h
      match x with
      | [] =>
        rw [decodeOptions.eq_def, if_neg hlen] at h
        dsimp only at h
        rw [if_neg hpad, if_neg hend] at h
        cases h
      | optlen :: x =>
        rw [List.cons_append]
        by_cases hcut : len - 2 < optlen.toNat
        · rw [decodeOptions_cut hpad hcut] at h ⊢
          exact h
        rw [decodeOptions_fits hlen hpad hend hcut] at h ⊢
        obtain ⟨info₁, h₁, h₂⟩ := bind_eq_ok h
        rw [decodeOption_of_ok h₁, bind_ok, List.drop_append]
        exact ih _ (by omega) h₂ _

def optionBytes (msg : DhcpMsg) (rest : List UInt8) (len : Int) : List UInt8 :=
  ((msg.options.toList ++ rest).drop 4).take (len - (DHCP_MSG_FIXED_SIZE + 4)).toNat

def optionsOf (msg : DhcpMsg) (rest : List UInt8) (len : Int) : List OptionEntry :=
  OptionList.parse OPT_PAD OPT_END (optionBytes msg rest len)

section

variable {msg : DhcpMsg} {len : Nat}

theorem decodeDhcpMsg_refused (h : len < DHCP_MSG_FIXED_SIZE + 4 ∨ ¬HasCookie msg) :
    decodeDhcpMsg msg len = .ok (-1, .zero) := by
  unfold decodeDhcpMsg HasCookie at *
  split
  · rfl
  next hlen =>
    have hcookie := h.resolve_left hlen
    split
    · rfl
    · split
      · rfl
      · split
        · rfl
        · split
          · rfl
          · grind

theorem decodeDhcpMsg_accepted (hlen : ¬len < DHCP_MSG_FIXED_SIZE + 4) (h : HasCookie msg) :
    decodeDhcpMsg msg len =
      (decodeOptions (msg.options.toList.drop 4) (len - (DHCP_MSG_FIXED_SIZE + 4)) .zero).map fun info =>
        (0, { info with ipaddr := msg.yiaddr }) := by
  obtain ⟨h₁, h₂, h₃, h₄⟩ := h
  rw [decodeDhcpMsg, if_neg hlen, if_neg (not_not_intro h₁), if_neg (not_not_intro h₂),
    if_neg (not_not_intro h₃), if_neg (not_not_intro h₄)]

end

attribute [ext] DhcpInfo

namespace DhcpInfo

def typeRead (opts : List OptionEntry) : UInt32 :=
  (OptionList.last readsType opts).elim 0 fun o => ((o.value ++ o.tail).getD 0 0).toUInt32

theorem foldl_decoded (opts : List OptionEntry) :
    opts.foldl decoded zero = { ofOptions opts with type := typeRead opts } := by
  have hfield : ∀ {β : Type} (field : DhcpInfo → β) (p : OptionEntry → Bool) (f : OptionEntry → β),
      (∀ info o, field (decoded info o) = if p o then f o else field info) →
        field (opts.foldl decoded zero) = (OptionList.last p opts).elim (field zero) f := by
    intro β field p f h
    rw [← OptionList.foldl_update p f, List.foldl_hom field fun info o => (h info o).symm]
  have hipaddr : (opts.foldl decoded zero).ipaddr = 0 := by
    rw [hfield ipaddr (fun _ => false) (fun _ => 0) fun _ _ => rfl, OptionList.last, List.filter_false]
    rfl
  apply DhcpInfo.ext
  · exact hfield type readsType _ fun _ _ => rfl
  · exact hipaddr
  · exact hfield gateway (has OPT_GATEWAY 4) _ fun _ _ => rfl
  · exact hfield prefixLength (has OPT_SUBNET_MASK 4) _ fun _ _ => rfl
  · exact hfield dns1 (has OPT_DNS 4) _ fun _ _ => rfl
  · exact hfield dns2 (has OPT_DNS 8) _ fun _ _ => rfl
  · exact hfield serveraddr (has OPT_SERVER_ID 4) _ fun _ _ => rfl
  · exact hfield lease (has OPT_LEASE_TIME 4) _ fun _ _ => rfl

end DhcpInfo

/-- The last message type option that a byte follows has a value, or the byte behind it is the
type a parser finds. -/
def TypeHasValue (opts : List OptionEntry) : Prop :=
  ∀ o, OptionList.last readsType opts = some o → o.value = [] →
    (o.tail.getD 0 0).toUInt32 = (DhcpInfo.ofOptions opts).type

theorem typeRead_eq_iff (opts : List OptionEntry) :
    DhcpInfo.typeRead opts = (DhcpInfo.ofOptions opts).type ↔ TypeHasValue opts := by
  have hsub : ∀ o, has OPT_MESSAGE_TYPE 1 o = true → readsType o = true := by
    intro o ho
    simp only [has, readsType, decide_eq_true_eq] at ho ⊢
    refine ⟨ho.1, fun hnil => ?_⟩
    rw [(List.append_eq_nil_iff.mp hnil).1] at ho
    exact absurd ho.2 (by simp)
  unfold TypeHasValue DhcpInfo.typeRead
  cases hlast : OptionList.last readsType opts with
  | none =>
    rw [DhcpInfo.ofOptions, OptionList.last_eq_none hsub hlast]
    exact iff_of_true rfl fun o ho => by cases ho
  | some o =>
    rw [Option.elim_some]
    by_cases hvalue : o.value = []
    · rw [hvalue, List.nil_append]
      constructor
      · intro h o' ho' _
        cases ho'
        exact h
      · exact fun h => h o rfl hvalue
    · have hpos := List.length_pos_of_ne_nil hvalue
      have hcode : o.code = OPT_MESSAGE_TYPE := (of_decide_eq_true (OptionList.of_last hlast)).1
      have hhas : has OPT_MESSAGE_TYPE 1 o = true := decide_eq_true ⟨hcode, hpos⟩
      refine iff_of_true ?_ fun o' ho' hnil => ?_
      · rw [DhcpInfo.ofOptions, OptionList.last_of_last hsub hlast hhas, Option.elim_some,
          getD_append_left hpos]
      · cases ho'
        exact absurd hnil hvalue

/-- `decode_dhcp_msg` as a parser: what it refuses, and when what it returns is what an RFC 2132
parser finds in the `len` bytes of the message.  `rest` is the memory behind the structure. -/
theorem decodeDhcpMsg_eq_parse_iff (msg : DhcpMsg) (rest : List UInt8) (len : Int)
    (hbuf : len ≤ DHCP_MSG_SIZE + rest.length) :
    (len ≤ DHCP_MSG_SIZE → ∃ ret info, decodeDhcpMsg msg len.toNat = .ok (ret, info)) ∧
      ∀ ret info, decodeDhcpMsg msg len.toNat = .ok (ret, info) →
        (ret = 0 ∨ ret = -1) ∧
        (ret = -1 ↔ len < DHCP_MSG_FIXED_SIZE + 4 ∨ ¬HasCookie msg) ∧
        (ret = -1 → info = .zero) ∧
        (ret = 0 →
          (info = { DhcpInfo.ofOptions (optionsOf msg rest len) with ipaddr := msg.yiaddr } ↔
            TypeHasValue (optionsOf msg rest len))) := by
  have hfixed : len.toNat < DHCP_MSG_FIXED_SIZE + 4 ↔ len < DHCP_MSG_FIXED_SIZE + 4 := by omega
  by_cases hrefused : len < DHCP_MSG_FIXED_SIZE + 4 ∨ ¬HasCookie msg
  · have heq : decodeDhcpMsg msg len.toNat = .ok (-1, .zero) :=
      decodeDhcpMsg_refused (hrefused.imp_left hfixed.mpr)
    refine ⟨fun _ => ⟨_, _, heq⟩, fun ret info h => ?_⟩
    cases heq.symm.trans h
    exact ⟨.inr rfl, iff_of_true rfl hrefused, fun _ => rfl, fun h0 => absurd h0 (by decide)⟩
  obtain ⟨hlen, hcookie⟩ := not_or.mp hrefused
  rw [← hfixed] at hlen
  have heq := decodeDhcpMsg_accepted hlen (not_not.mp hcookie)
  have hsize : (msg.options.toList.drop 4).length = 1020 := by rw [List.length_drop, Vector.length_toList]
  have hmem : (msg.options.toList ++ rest).drop 4 = msg.options.toList.drop 4 ++ rest :=
    List.drop_append_of_le_length (by rw [Vector.length_toList]; decide)
  have hfix : DHCP_MSG_FIXED_SIZE = 236 := rfl
  have hmsg : DHCP_MSG_SIZE = 1260 := rfl
  refine ⟨fun hle => ?_, fun ret info h => ?_⟩
  · rw [heq, decodeOptions_take (by omega), map_ok]
    exact ⟨_, _, rfl⟩
  · rw [heq] at h
    obtain ⟨info₁, h₁, hpair⟩ := map_eq_ok h
    obtain ⟨rfl, hinfo⟩ := Prod.mk.inj hpair
    have hall := decodeOptions_of_ok _ h₁ rest
    rw [decodeOptions_take (by rw [List.length_append]; omega), ← hmem, DhcpInfo.foldl_decoded] at hall
    have hopts : OptionList.parse OPT_PAD OPT_END
        (((msg.options.toList ++ rest).drop 4).take (len.toNat - (DHCP_MSG_FIXED_SIZE + 4))) =
          optionsOf msg rest len := by
      rw [optionsOf, optionBytes, show len.toNat - (DHCP_MSG_FIXED_SIZE + 4) =
        (len - ((DHCP_MSG_FIXED_SIZE : Nat) + 4)).toNat by omega]
    rw [hopts] at hall
    have hinfo₁ := Except.ok.inj hall
    refine ⟨.inl rfl, iff_of_false (by decide) hrefused, fun h0 => absurd h0 (by decide), fun _ => ?_⟩
    rw [← typeRead_eq_iff, ← hinfo, ← hinfo₁]
    constructor
    · exact fun h => congrArg DhcpInfo.type h
    · intro h
      rw [h]

def withOptions (bs : List UInt8) : DhcpMsg :=
  DhcpMsg.zero.writeOptions 0 ([OPT_COOKIE1, OPT_COOKIE2, OPT_COOKIE3, OPT_COOKIE4] ++ bs)

def ackMsg : DhcpMsg :=
  withOptions [OPT_PAD, OPT_SERVER_ID, 4, 10, 0, 0, 1, OPT_MESSAGE_TYPE, 1, DHCPACK, OPT_END]

theorem decodeDhcpMsg_parses_ack : ∃ info, decodeDhcpMsg ackMsg 251 = .ok (0, info) ∧
    info = DhcpInfo.ofOptions (optionsOf ackMsg [] 251) := by
  have h := decodeDhcpMsg_eq_parse_iff ackMsg [] 251 (by decide)
  obtain ⟨ret, info, heq⟩ := h.1 (by decide)
  obtain ⟨hret, hrefused, -, hinfo⟩ := h.2 ret info heq
  have hcookie : HasCookie ackMsg := by decide +kernel
  have hret0 : ret = 0 := by
    refine hret.resolve_right fun hneg => ?_
    exact absurd (hrefused.mp hneg) (not_or.mpr ⟨by decide, not_not_intro hcookie⟩)
  have hlast : (OptionList.last readsType (optionsOf ackMsg [] 251)).map OptionEntry.value =
      some [DHCPACK] := by
    decide +kernel
  refine ⟨info, hret0 ▸ heq, (hinfo hret0).mpr fun o ho hnil => ?_⟩
  rw [ho] at hlast
  cases hnil.symm.trans (Option.some.inj hlast)

def bareTypeMsg : DhcpMsg := withOptions [OPT_MESSAGE_TYPE, 0, 5, 0, OPT_END]

/-- No parser finds a type in it, the client finds a DHCPACK. -/
theorem decodeDhcpMsg_ne_parse : ∃ info, decodeDhcpMsg bareTypeMsg 245 = .ok (0, info) ∧
    info.type = DHCPACK.toUInt32 ∧ (DhcpInfo.ofOptions (optionsOf bareTypeMsg [] 245)).type = 0 := by
  have hseen : (decodeDhcpMsg bareTypeMsg 245).toOption.map (fun p => (p.1, p.2.type)) =
      some (0, DHCPACK.toUInt32) := by
    decide +kernel
  obtain ⟨⟨ret, info⟩, heq, hp⟩ := exists_of_map_eq_some hseen
  obtain ⟨rfl, htype⟩ := Prod.mk.inj hp
  exact ⟨info, heq, htype, by decide +kernel⟩

end G361FPlatform.Dhcp
