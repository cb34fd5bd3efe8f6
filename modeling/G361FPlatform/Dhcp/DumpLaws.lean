import G361FPlatform.Dhcp.Dump
import G361FPlatform.Dhcp.ParseLaws

namespace G361FPlatform.Dhcp

open Library LittleEndian

theorem exists_hex2str {buf : Block} {cp : Nat} {array : List UInt8}
    (h : cp + 4 * array.length < buf.length) :
    ∃ buf', hex2str buf cp array = .ok buf' ∧ buf'.length = buf.length := by
  induction array generalizing buf cp with
  | nil => exact ⟨buf, rfl, rfl⟩
  | cons b array ih =>
    rw [List.length_cons] at h
    have htext : (hexText b).length = 5 := rfl
    have hfits : cp + (hexText b).length ≤ buf.length := by omega
    obtain ⟨buf₁, hstore, hlen₁⟩ := Block.exists_store hfits
    have hmore : cp + 4 + 4 * array.length < buf₁.length := by omega
    obtain ⟨buf', hrest, hlen'⟩ := ih hmore
    refine ⟨buf', ?_, hlen'.trans hlen₁⟩
    rw [hex2str, hstore, bind_ok, hrest]

section

variable {optsz : UInt8} {x : List UInt8} {buf : Block}

theorem exists_dumpValue (op : UInt8) (hx : optsz.toNat ≤ x.length) (hbuf : buf.length = DUMP_BUF_SIZE) :
    ∃ buf', buf'.length = DUMP_BUF_SIZE ∧ ∀ rest, dumpValue op optsz (x ++ rest) buf = .ok buf' := by
  have hsize : DUMP_BUF_SIZE = 2048 := rfl
  have hlt := optsz.toNat_lt
  have htake : (x.take optsz.toNat).length = optsz.toNat := List.length_take_of_le hx
  unfold dumpValue
  split
  · rw [if_pos (by omega)]
    have hfits : 0 + (x.take optsz.toNat).length ≤ buf.length := by omega
    obtain ⟨buf₁, h₁, hlen₁⟩ := Block.exists_store hfits
    have hnul : optsz.toNat + [(0 : UInt8)].length ≤ buf₁.length := by
      rw [List.length_singleton]
      omega
    obtain ⟨buf₂, h₂, hlen₂⟩ := Block.exists_store hnul
    refine ⟨buf₂, hlen₂.trans (hlen₁.trans hbuf), fun rest => ?_⟩
    dsimp only
    rw [Block.slice_append_left hx, bind_ok, h₁, bind_ok, h₂]
  · have hfits : 0 + 4 * (x.take optsz.toNat).length < buf.length := by omega
    obtain ⟨buf', h', hlen'⟩ := exists_hex2str hfits
    refine ⟨buf', hlen'.trans hbuf, fun rest => ?_⟩
    rw [Block.slice_append_left hx, bind_ok, h']

theorem exists_dumpName (op : UInt8) (hx : 0 < x.length) :
    ∃ name, ∀ rest, dumpName op (x ++ rest) = .ok name := by
  obtain ⟨b, x, rfl⟩ := List.exists_cons_of_length_pos hx
  unfold dumpName
  split
  · exact ⟨dhcpTypeToName b, fun rest => rfl⟩
  · exact ⟨"", fun rest => rfl⟩

variable {op : UInt8} {off len : Nat} {info : DhcpInfo}

theorem dumpOptions_short (h : len ≤ 2) : dumpOptions x off len buf = .ok [] := by
  rw [dumpOptions.eq_def, if_pos h]

theorem dumpOptions_pad (h : ¬len ≤ 2) :
    dumpOptions (OPT_PAD :: x) off len buf = dumpOptions x (off + 1) (len - 1) buf := by
  rw [dumpOptions.eq_def, if_neg h]
  exact if_pos rfl

theorem dumpOptions_end : dumpOptions (OPT_END :: x) off len buf = .ok [] := by
  rw [dumpOptions.eq_def]
  dsimp only
  rw [if_neg (show OPT_END ≠ 0 by decide), if_pos rfl, ite_self]

theorem dumpOptions_cut (hpad : op ≠ OPT_PAD) (h : len - 2 < optsz.toNat) :
    dumpOptions (op :: optsz :: x) off len buf = .ok [] := by
  rw [dumpOptions.eq_def]
  dsimp only
  rw [if_neg (show op ≠ 0 from hpad), if_pos h, ite_self, ite_self]

theorem dumpOptions_fits (hlen : ¬len ≤ 2) (hpad : op ≠ OPT_PAD) (hend : op ≠ OPT_END)
    (h : ¬len - 2 < optsz.toNat) : dumpOptions (op :: optsz :: x) off len buf =
      (dumpValue op optsz x buf).bind fun buf =>
        (dumpName op x).bind fun name =>
          (dumpOptions (x.drop optsz.toNat) (off + (optsz.toNat + 2)) (len - 2 - optsz.toNat) buf).map
            (⟨⟨op, optsz, off + 2⟩, shownText buf, name⟩ :: ·) := by
  rw [dumpOptions.eq_def, if_neg hlen]
  dsimp only
  rw [if_neg (show op ≠ 0 from hpad), if_neg hend, if_neg h]

theorem visitOptions_short (h : len ≤ 2) : visitOptions x off len info = .ok (info, []) := by
  rw [visitOptions.eq_def, if_pos h]

theorem visitOptions_pad (h : ¬len ≤ 2) :
    visitOptions (OPT_PAD :: x) off len info = visitOptions x (off + 1) (len - 1) info := by
  rw [visitOptions.eq_def, if_neg h]
  exact if_pos rfl

theorem visitOptions_end : visitOptions (OPT_END :: x) off len info = .ok (info, []) := by
  rw [visitOptions.eq_def]
  dsimp only
  rw [if_neg (show OPT_END ≠ OPT_PAD by decide), if_pos rfl, ite_self]

theorem visitOptions_cut (hpad : op ≠ OPT_PAD) (h : len - 2 < optsz.toNat) :
    visitOptions (op :: optsz :: x) off len info = .ok (info, []) := by
  rw [visitOptions.eq_def]
  dsimp only
  rw [if_neg hpad, if_pos h, ite_self, ite_self]

theorem visitOptions_fits (hlen : ¬len ≤ 2) (hpad : op ≠ OPT_PAD) (hend : op ≠ OPT_END)
    (h : ¬len - 2 < optsz.toNat) : visitOptions (op :: optsz :: x) off len info =
      (decodeOption op optsz x info).bind fun info =>
        (visitOptions (x.drop optsz.toNat) (off + 2 + optsz.toNat) (len - 2 - optsz.toNat) info).map
          fun (info, visits) => (info, ⟨op, optsz, off + 2⟩ :: visits) := by
  rw [visitOptions.eq_def, if_neg hlen]
  dsimp only
  rw [if_neg hpad, if_neg hend, if_neg h]

end

/-- Both walkers come to an end within the `len` bytes, whatever is behind them, and have visited
the same options. -/
theorem walk (x : List UInt8) (off : Nat) {buf : Block} (hbuf : buf.length = DUMP_BUF_SIZE)
    (info : DhcpInfo) : ∃ shown info', ∀ rest,
      dumpOptions (x ++ rest) off x.length buf = .ok shown ∧
        visitOptions (x ++ rest) off x.length info = .ok (info', shown.map ShownOption.visit) := by
  induction x using walk_induction generalizing off buf info with
  | short x h => exact ⟨[], info, fun rest => ⟨dumpOptions_short h, visitOptions_short h⟩⟩
  | pad x h ih =>
    obtain ⟨shown, info', hrest⟩ := ih (off + 1) hbuf info
    have hlong : ¬(OPT_PAD :: x).length ≤ 2 := by rw [List.length_cons]; omega
    refine ⟨shown, info', fun rest => ?_⟩
    rw [List.cons_append, dumpOptions_pad hlong, visitOptions_pad hlong, List.length_cons,
      Nat.add_sub_cancel]
    exact hrest rest
  | stop x =>
    refine ⟨[], info, fun rest => ?_⟩
    rw [List.cons_append]
    exact ⟨dumpOptions_end, visitOptions_end⟩
  | cut opt optlen x hpad hend hcut =>
    refine ⟨[], info, fun rest => ?_⟩
    rw [List.cons_append, List.cons_append]
    exact ⟨dumpOptions_cut hpad hcut, visitOptions_cut hpad hcut⟩
  | fits opt optlen x hpad hend hfits hpos ih =>
    obtain ⟨buf', hbuf', hvalue⟩ := exists_dumpValue opt hfits hbuf
    obtain ⟨name, hname⟩ := exists_dumpName opt hpos
    obtain ⟨shown, info', hrest⟩ := ih (off + (optlen.toNat + 2)) hbuf'
      (info.decoded ⟨opt, x.take optlen.toNat, x.drop optlen.toNat⟩)
    have hlong : ¬(opt :: optlen :: x).length ≤ 2 := by rw [List.length_cons, List.length_cons]; omega
    have hlen : (opt :: optlen :: x).length - 2 - optlen.toNat = (x.drop optlen.toNat).length := by
      rw [List.length_drop]
      rfl
    refine ⟨⟨⟨opt, optlen, off + 2⟩, shownText buf', name⟩ :: shown, info', fun rest => ?_⟩
    obtain ⟨hdump, hvisit⟩ := hrest rest
    rw [List.cons_append, List.cons_append, dumpOptions_fits hlong hpad hend (Nat.not_lt.mpr hfits),
      visitOptions_fits hlong hpad hend (Nat.not_lt.mpr hfits), hlen, hvalue, bind_ok, hname, bind_ok,
      List.drop_append_of_le_length hfits, hdump, decodeOption_append hfits hpos, decodeOption_eq hfits hpos,
      bind_ok, show off + 2 + optlen.toNat = off + (optlen.toNat + 2) by omega, hvisit]
    exact ⟨rfl, rfl⟩

theorem fst_visitOptions (x : List UInt8) (off len : Nat) (info : DhcpInfo) :
    (visitOptions x off len info).map Prod.fst = decodeOptions x len info := by
  induction len using Nat.strong_induction_on generalizing x off info with
  | _ len ih =>
    rw [visitOptions.eq_def, decodeOptions.eq_def]
    by_cases hlen : len ≤ 2
    · rw [if_pos hlen, if_pos hlen, map_ok]
    rw [if_neg hlen, if_neg hlen]
    match x with
    | [] => rfl
    | opt :: x =>
      dsimp only
      by_cases hpad : opt = OPT_PAD
      · rw [if_pos hpad, if_pos hpad]
        exact ih (len - 1) (by omega) x (off + 1) info
      rw [if_neg hpad, if_neg hpad]
      by_cases hend : opt = OPT_END
      · rw [if_pos hend, if_pos hend, map_ok]
      rw [if_neg hend, if_neg hend]
      match x with
      | [] => rfl
      | optlen :: x =>
        dsimp only
        by_cases hcut : len - 2 < optlen.toNat
        · rw [if_pos hcut, if_pos hcut, map_ok]
        rw [if_neg hcut, if_neg hcut]
        cases decodeOption opt optlen x info with
        | error e => rfl
        | ok info =>
          rw [bind_ok, bind_ok, ← ih _ (by omega) _ (off + 2 + optlen.toNat) info]
          cases visitOptions (x.drop optlen.toNat) (off + 2 + optlen.toNat) (len - 2 - optlen.toNat) info with
          | error e => rfl
          | ok p => rfl

theorem dotLoop_eq (front text : List UInt8) :
    dotLoop (front.length + text.length) front.length (front ++ text) = .ok (front ++ dotted text) := by
  induction text generalizing front with
  | nil => rw [dotLoop, if_pos (by simp), dotted]
  | cons x text ih =>
    have hnext : ∀ y, dotLoop (front.length + (x :: text).length) (front.length + 1) (front ++ y :: text) =
        .ok (front ++ y :: dotted text) := by
      intro y
      have := ih (front ++ [y])
      rw [List.length_append, List.length_singleton, List.append_assoc, List.append_assoc] at this
      rw [List.length_cons, Nat.add_comm text.length, ← Nat.add_assoc]
      exact this
    rw [dotLoop, if_neg (by simp), List.getElem?_append_right (Nat.le_refl _), Nat.sub_self,
      List.getElem?_cons_zero, dotted]
    dsimp only
    split
    · split
      · rfl
      · rw [List.set_append_right _ _ (Nat.le_refl _), Nat.sub_self, List.set_cons_zero, hnext]
    · exact hnext x

theorem dotText_eq {n : Nat} (text : Vector UInt8 (n + 1)) :
    dotText (n + 1) text.toList = .ok (dumpText text).toList := by
  have hloop := dotLoop_eq [] text.toList
  rw [List.length_nil, Nat.zero_add, Vector.length_toList, List.nil_append, List.nil_append] at hloop
  rw [dotText, hloop, bind_ok, setByte, if_pos (by rw [length_dotted, Vector.length_toList]; omega)]
  simp [dumpText]

theorem take_bytes (m : DhcpMsg) {len : Nat} (h : DHCP_MSG_FIXED_SIZE ≤ len) : m.bytes.take len =
    [m.op, m.htype, m.hlen, m.hops] ++ bytes32 m.xid ++ bytes16 m.secs ++ bytes16 m.flags ++
      bytes32 m.ciaddr ++ bytes32 m.yiaddr ++ bytes32 m.siaddr ++ bytes32 m.giaddr ++
      m.chaddr.toList ++ m.sname.toList ++ m.file.toList ++
      m.options.toList.take (len - DHCP_MSG_FIXED_SIZE) := by
  have hfixed : ([m.op, m.htype, m.hlen, m.hops] ++ bytes32 m.xid ++ bytes16 m.secs ++ bytes16 m.flags ++
      bytes32 m.ciaddr ++ bytes32 m.yiaddr ++ bytes32 m.siaddr ++ bytes32 m.giaddr ++
      m.chaddr.toList ++ m.sname.toList ++ m.file.toList).length = DHCP_MSG_FIXED_SIZE := by
    simp [DHCP_MSG_FIXED_SIZE]
  rw [DhcpMsg.bytes, List.take_append, hfixed, List.take_of_length_le (hfixed.trans_le h)]

/-- Messages that begin with the same `len` bytes. -/
def Begins (len : Nat) (msg msg' : DhcpMsg) : Prop := msg'.bytes.take len = msg.bytes.take len

theorem Begins.eq_with {len : Nat} {msg msg' : DhcpMsg} (h : Begins len msg msg')
    (hlen : DHCP_MSG_FIXED_SIZE ≤ len) : msg' = { msg with options := msg'.options } ∧
      msg'.options.toList.take (len - DHCP_MSG_FIXED_SIZE) =
        msg.options.toList.take (len - DHCP_MSG_FIXED_SIZE) := by
  rw [Begins, take_bytes msg' hlen, take_bytes msg hlen] at h
  obtain ⟨h, hoptions⟩ := List.append_inj h (by simp)
  obtain ⟨h, hfile⟩ := List.append_inj h (by simp)
  obtain ⟨h, hsname⟩ := List.append_inj h (by simp)
  obtain ⟨h, hchaddr⟩ := List.append_inj h (by simp)
  obtain ⟨h, hgiaddr⟩ := List.append_inj h (by simp)
  obtain ⟨h, hsiaddr⟩ := List.append_inj h (by simp)
  obtain ⟨h, hyiaddr⟩ := List.append_inj h (by simp)
  obtain ⟨h, hciaddr⟩ := List.append_inj h (by simp)
  obtain ⟨h, hflags⟩ := List.append_inj h (by simp)
  obtain ⟨h, hsecs⟩ := List.append_inj h (by simp)
  obtain ⟨h, hxid⟩ := List.append_inj h (by simp)
  simp only [List.cons.injEq, and_true] at h
  constructor
  · cases msg
    cases msg'
    simp only [DhcpMsg.mk.injEq, and_true]
    exact ⟨h.1, h.2.1, h.2.2.1, h.2.2.2, bytes32_inj hxid, bytes16_inj hsecs, bytes16_inj hflags,
      bytes32_inj hciaddr, bytes32_inj hyiaddr, bytes32_inj hsiaddr, bytes32_inj hgiaddr,
      Vector.toList_inj.mp hchaddr, Vector.toList_inj.mp hsname, Vector.toList_inj.mp hfile⟩
  · exact hoptions

theorem exists_dump (msg : DhcpMsg) {len : Nat} (hlen : DHCP_MSG_FIXED_SIZE + 4 ≤ len) {buf : Block}
    (hbuf : buf.length = DUMP_BUF_SIZE) : ∃ lines buf', buf'.length = DUMP_BUF_SIZE ∧
      ∀ options, dump msg options len buf =
        (dumpOptions (options.drop 4) 4 (len - (DHCP_MSG_FIXED_SIZE + 4)) buf').map
          (⟨(dumpDhcpMsg msg len).sname.toList, (dumpDhcpMsg msg len).file.toList, lines, ·⟩) := by
  have hfix : DHCP_MSG_FIXED_SIZE = 236 := rfl
  have hsize : DUMP_BUF_SIZE = 2048 := rfl
  have hc : (if 16 < msg.hlen then 16 else msg.hlen.toNat) ≤ 16 := by
    split
    · exact Nat.le_refl 16
    next h => exact UInt8.le_iff_toNat_le.mp (UInt8.not_lt.mp h)
  have hslice : Block.slice msg.chaddr.toList (0 : Nat) (if 16 < msg.hlen then 16 else msg.hlen.toNat) = _ :=
    Block.slice_eq (by rw [Vector.length_toList]; omega)
  have hfits : 0 + 4 * ((msg.chaddr.toList.drop 0).take
      (if 16 < msg.hlen then 16 else msg.hlen.toNat)).length < buf.length := by
    rw [List.length_take]
    omega
  obtain ⟨buf', hhex, hlen'⟩ := exists_hex2str hfits
  have hsname : (dumpDhcpMsg msg len).sname = dumpText msg.sname := by rw [dumpDhcpMsg, if_neg (by omega)]
  have hfile : (dumpDhcpMsg msg len).file = dumpText msg.file := by rw [dumpDhcpMsg, if_neg (by omega)]
  refine ⟨dumpLines msg (len - DHCP_MSG_FIXED_SIZE) buf' (dumpText msg.sname).toList
    (dumpText msg.file).toList, buf', hlen'.trans hbuf, fun options => ?_⟩
  rw [dump, if_neg (by omega)]
  dsimp only
  rw [← Int.natCast_zero, hslice, bind_ok, hhex, bind_ok, dotText_eq, bind_ok, dotText_eq, bind_ok, if_neg (by omega),
    show ((len : Int) - (DHCP_MSG_FIXED_SIZE : Int) - 4).toNat = len - (DHCP_MSG_FIXED_SIZE + 4) by omega,
    hsname, hfile]

theorem decodeDhcpMsg_dumpDhcpMsg (msg : DhcpMsg) (len : Nat) :
    decodeDhcpMsg (dumpDhcpMsg msg len) len = decodeDhcpMsg msg len := by
  unfold dumpDhcpMsg
  split <;> rfl

def optionsBelow (msg : DhcpMsg) (len : Nat) : List UInt8 :=
  msg.options.toList.take (len - DHCP_MSG_FIXED_SIZE)

theorem Begins.hasCookie {len : Nat} {msg msg' : DhcpMsg} (h : Begins len msg msg')
    (hlen : DHCP_MSG_FIXED_SIZE + 4 ≤ len) (hcookie : HasCookie msg) : HasCookie msg' := by
  have hoptions := (h.eq_with (by omega)).2
  have hget : ∀ i (hi : i < 4), msg'.options[i] = msg.options[i] := by
    intro i hi
    have heq := congrArg (·[i]?) hoptions
    simp only [List.getElem?_take, show i < len - DHCP_MSG_FIXED_SIZE by omega, if_true,
      Vector.getElem?_toList] at heq
    simpa [show i < 1024 by omega] using heq
  unfold HasCookie
  rw [hget 0 (by decide), hget 1 (by decide), hget 2 (by decide), hget 3 (by decide)]
  exact hcookie

/-- On a message with the cookie, dumper and decoder need no option byte but the first `len` bytes
have, stay within their buffers and visit the same options; whatever message begins with these
bytes, the log is the same, and what is decoded, before the dump and after it. -/
theorem dump_decode_walk (msg : DhcpMsg) (len : Nat) (buf : Block)
    (hlen : DHCP_MSG_FIXED_SIZE + 4 ≤ len) (hmax : len ≤ DHCP_MSG_SIZE) (hcookie : HasCookie msg)
    (hbuf : buf.length = DUMP_BUF_SIZE) : ∃ d info,
      dump msg (optionsBelow msg len) len buf = .ok d ∧
      visitOptions ((optionsBelow msg len).drop 4) 4 (len - (DHCP_MSG_FIXED_SIZE + 4)) .zero =
        .ok (info, d.options.map ShownOption.visit) ∧
      ∀ msg', Begins len msg msg' →
        dump msg' msg'.options.toList len buf = .ok d ∧
        visitOptions (msg'.options.toList.drop 4) 4 (len - (DHCP_MSG_FIXED_SIZE + 4)) .zero =
          .ok (info, d.options.map ShownOption.visit) ∧
        d.sname = (dumpDhcpMsg msg' len).sname.toList ∧ d.file = (dumpDhcpMsg msg' len).file.toList ∧
        decodeDhcpMsg msg' len = .ok (0, { info with ipaddr := msg.yiaddr }) ∧
        decodeDhcpMsg (dumpDhcpMsg msg' len) len = decodeDhcpMsg msg' len := by
  have hfix : DHCP_MSG_FIXED_SIZE = 236 := rfl
  have hsize : DHCP_MSG_SIZE = 1260 := rfl
  have hbelow : (optionsBelow msg len).length = len - DHCP_MSG_FIXED_SIZE := by
    rw [optionsBelow, List.length_take, Vector.length_toList]
    omega
  have hn : ((optionsBelow msg len).drop 4).length = len - (DHCP_MSG_FIXED_SIZE + 4) := by
    rw [List.length_drop]
    omega
  obtain ⟨lines, buf', hbuf', hdump⟩ := exists_dump msg hlen hbuf
  obtain ⟨shown, info, hwalk⟩ := walk ((optionsBelow msg len).drop 4) 4 hbuf' .zero
  rw [hn] at hwalk
  have hexact := hwalk []
  rw [List.append_nil] at hexact
  refine ⟨⟨(dumpDhcpMsg msg len).sname.toList, (dumpDhcpMsg msg len).file.toList, lines, shown⟩, info, ?_,
    hexact.2, fun msg' hbegins => ?_⟩
  · rw [hdump, hexact.1, map_ok]
  · obtain ⟨heq, hoptions⟩ := hbegins.eq_with (by omega)
    have hmem : msg'.options.toList.drop 4 = (optionsBelow msg len).drop 4 ++
        (msg'.options.toList.drop (len - DHCP_MSG_FIXED_SIZE)) := by
      conv_lhs => rw [← List.take_append_drop (len - DHCP_MSG_FIXED_SIZE) msg'.options.toList, hoptions]
      exact List.drop_append_of_le_length (by rw [← optionsBelow]; omega)
    obtain ⟨hshown, hvisits⟩ := hwalk (msg'.options.toList.drop (len - DHCP_MSG_FIXED_SIZE))
    rw [← hmem] at hshown hvisits
    have hdump' : dump msg' msg'.options.toList len buf = dump msg msg'.options.toList len buf := by
      rw [heq]
      rfl
    have htexts : (dumpDhcpMsg msg' len).sname = (dumpDhcpMsg msg len).sname ∧
        (dumpDhcpMsg msg' len).file = (dumpDhcpMsg msg len).file := by
      rw [heq, dumpDhcpMsg, dumpDhcpMsg, if_neg (by omega), if_neg (by omega)]
      exact ⟨rfl, rfl⟩
    have hdecode := fst_visitOptions (msg'.options.toList.drop 4) 4 (len - (DHCP_MSG_FIXED_SIZE + 4)) .zero
    rw [hvisits, map_ok] at hdecode
    refine ⟨?_, hvisits, ?_, ?_, ?_, decodeDhcpMsg_dumpDhcpMsg msg' len⟩
    · rw [hdump', hdump, hshown, map_ok]
    · rw [htexts.1]
    · rw [htexts.2]
    · rw [decodeDhcpMsg_accepted (by omega) (hbegins.hasCookie hlen hcookie), ← hdecode, map_ok, heq]

/-- The acknowledgement has a server id and a type, behind the pad. -/
theorem dump_decode_walk_ack : ∃ d, dump ackMsg (optionsBelow ackMsg 251) 251
    (List.replicate DUMP_BUF_SIZE none) = .ok d ∧
      d.options.map ShownOption.visit = [⟨OPT_SERVER_ID, 4, 7⟩, ⟨OPT_MESSAGE_TYPE, 1, 13⟩] ∧
      decodeDhcpMsg (dumpDhcpMsg ackMsg 251) 251 = decodeDhcpMsg ackMsg 251 := by
  obtain ⟨d, info, hdump, hvisit, hbegins⟩ := dump_decode_walk ackMsg 251 (List.replicate DUMP_BUF_SIZE none)
    (by decide) (by decide) (by decide +kernel) List.length_replicate
  have hvisits : (visitOptions ((optionsBelow ackMsg 251).drop 4) 4 11 .zero).toOption.map Prod.snd =
      some [⟨OPT_SERVER_ID, 4, 7⟩, ⟨OPT_MESSAGE_TYPE, 1, 13⟩] := by
    decide +kernel
  obtain ⟨p, hp, hsnd⟩ := exists_of_map_eq_some hvisits
  cases hp.symm.trans hvisit
  exact ⟨d, hdump, hsnd, (hbegins ackMsg rfl).2.2.2.2.2⟩

end G361FPlatform.Dhcp
