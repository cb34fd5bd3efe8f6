import Mathlib.Algebra.Group.Nat.Defs
import Mathlib.Data.List.Range
import G361FPlatform.Library.CString

namespace G361FPlatform.Library

/-! The texts of IPv6 addresses: `inet_ntop` and `inet_pton`. -/

namespace Inet6

def groups (a : BitVec 128) : List Nat :=
  (List.range 8).map fun i => a.toNat / 65536 ^ (7 - i) % 65536

def ofGroups (gs : List Nat) : BitVec 128 := BitVec.ofNat 128 (gs.foldl (fun n g => n * 65536 + g) 0)

section Print

def hexDigit (d : Nat) : UInt8 := UInt8.ofNat (if d < 10 then 48 + d else 87 + d)

def hexText (g : Nat) : CString :=
  if g < 0x10 then [hexDigit g]
  else if g < 0x100 then [hexDigit (g / 0x10), hexDigit (g % 0x10)]
  else if g < 0x1000 then [hexDigit (g / 0x100), hexDigit (g / 0x10 % 0x10), hexDigit (g % 0x10)]
  else [hexDigit (g / 0x1000), hexDigit (g / 0x100 % 0x10), hexDigit (g / 0x10 % 0x10), hexDigit (g % 0x10)]

def joined (gs : List Nat) : CString := List.intercalate [58] (gs.map hexText)

/-- The longer of two runs of zero groups, the earlier one of equal ones; a run has a base and a length. -/
def longer (cur best : Option (Nat × Nat)) : Option (Nat × Nat) :=
  match cur, best with
  | none, best => best
  | some c, none => some c
  | some c, some b => if b.2 < c.2 then some c else some b

def longestRun : List Bool → Nat → Option (Nat × Nat) → Option (Nat × Nat) → Option (Nat × Nat)
  | [], _, cur, best => longer cur best
  | true :: zeros, i, cur, best =>
    longestRun zeros (i + 1) (some (match cur with | none => (i, 1) | some (base, len) => (base, len + 1))) best
  | false :: zeros, i, cur, best => longestRun zeros (i + 1) none (longer cur best)

/-- The run that is left out of the text. -/
def bestRun (zeros : List Bool) : Option (Nat × Nat) :=
  (longestRun zeros 0 none none).filter (2 ≤ ·.2)

def decimal (n : Nat) : CString := CString.ofString (Nat.repr n)

def dotted (hi lo : Nat) : CString :=
  List.intercalate [46] ([hi / 256, hi % 256, lo / 256, lo % 256].map decimal)

def inetNtop (a : BitVec 128) : CString :=
  let gs := groups a
  match bestRun (gs.map (· = 0)) with
  | none => joined gs
  | some (base, len) =>
    -- an IPv4 address in an IPv6 one
    if base = 0 ∧ (len = 6 ∨ len = 5 ∧ gs.getD 5 0 = 0xffff) then
      [58, 58] ++ (if len = 5 then ("ffff:" : CString) else []) ++ dotted (gs.getD 6 0) (gs.getD 7 0)
    else joined (gs.take base) ++ [58, 58] ++ joined (gs.drop (base + len))

end Print

section Parse

def hexValue (b : UInt8) : Option Nat :=
  if 48 ≤ b ∧ b ≤ 57 then some (b.toNat - 48)
  else if 97 ≤ b ∧ b ≤ 102 then some (b.toNat - 87)
  else if 65 ≤ b ∧ b ≤ 70 then some (b.toNat - 55)
  else none

def octet (token : CString) : Option Nat :=
  if token = [] ∨ (token.any fun b => b < 48 || 57 < b) ∨ (token.head? = some 48 ∧ token.length ≠ 1)
  then none
  else
    let value := token.foldl (fun n b => 10 * n + (b.toNat - 48)) 0
    if value ≤ 255 then some value else none

/-- The two groups of a dotted IPv4 address. -/
def inetPton4 (text : CString) : Option (Nat × Nat) :=
  match (CString.tokens 46 text).map octet with
  | [some a, some b, some c, some d] => some (256 * a + b, 256 * c + d)
  | _ => none

/-- The groups that are stored, how many there were at `::`, and the group that is being read. -/
structure Reader where
  groups : List Nat
  colonp : Option Nat
  seen : Nat
  val : Nat
  deriving DecidableEq, Repr

/-- The loop over the text; `curtok` is what has been left at the start of the group. -/
def inetPtonLoop : CString → CString → Reader → Option Reader
  | _, [], r => some r
  | curtok, ch :: src, r =>
    match hexValue ch with
    | some d =>
      if 4 < r.seen + 1 then none
      else inetPtonLoop curtok src { r with val := r.val * 16 + d, seen := r.seen + 1 }
    | none =>
      if ch = 58 then
        if r.seen = 0 then
          if r.colonp.isSome then none else inetPtonLoop src src { r with colonp := some r.groups.length }
        else if src = [] ∨ 8 < r.groups.length + 1 then none
        else inetPtonLoop src src ⟨r.groups ++ [r.val], r.colonp, 0, 0⟩
      else if ch = 46 ∧ r.groups.length + 2 ≤ 8 then
        (inetPton4 curtok).map fun quad => ⟨r.groups ++ [quad.1, quad.2], r.colonp, 0, 0⟩
      else none

/-- The group that was being read, then the zeros for `::`. -/
def Reader.finish (r : Reader) : Option (List Nat) := do
  let gs ← if r.seen = 0 then some r.groups
    else if 8 < r.groups.length + 1 then none
    else some (r.groups ++ [r.val])
  match r.colonp with
  | some base =>
    if gs.length = 8 then none
    else some (gs.take base ++ List.replicate (8 - gs.length) 0 ++ gs.drop base)
  | none => if gs.length = 8 then some gs else none

def skipColon (text : CString) : Option CString :=
  if text.head? = some 58 then if text.tail.head? = some 58 then some text.tail else none else some text

def inetPton (text : CString) : Option (BitVec 128) := do
  let src ← skipColon text
  let r ← inetPtonLoop src src ⟨[], none, 0, 0⟩
  let gs ← r.finish
  return ofGroups gs

end Parse

section Laws

theorem hexValue_hexDigit : ∀ d < 16, hexValue (hexDigit d) = some d := by decide

theorem hexDigit_ne : ∀ d < 16, hexDigit d ≠ 58 ∧ hexDigit d ≠ 45 := by decide

theorem exists_digits {g : Nat} (hg : g < 65536) :
    ∃ ds : List Nat, hexText g = ds.map hexDigit ∧ ds ≠ [] ∧
    ds.length ≤ 4 ∧ (∀ d ∈ ds, d < 16) ∧ ds.foldl (fun n d => n * 16 + d) 0 = g := by
  unfold hexText
  by_cases h₁ : g < 0x10
  · refine ⟨[g], if_pos h₁, List.cons_ne_nil _ _, by simp, by simpa using h₁, ?_⟩
    rw [List.foldl_cons, List.foldl_nil]
    omega
  rw [if_neg h₁]
  by_cases h₂ : g < 0x100
  · refine ⟨[g / 0x10, g % 0x10], if_pos h₂, List.cons_ne_nil _ _, by simp, ?_, ?_⟩
    · simp only [List.mem_cons, List.not_mem_nil, or_false, forall_eq_or_imp, forall_eq]
      omega
    · simp only [List.foldl_cons, List.foldl_nil]
      omega
  rw [if_neg h₂]
  by_cases h₃ : g < 0x1000
  · refine ⟨[g / 0x100, g / 0x10 % 0x10, g % 0x10], if_pos h₃, List.cons_ne_nil _ _, by simp, ?_, ?_⟩
    · simp only [List.mem_cons, List.not_mem_nil, or_false, forall_eq_or_imp, forall_eq]
      omega
    · simp only [List.foldl_cons, List.foldl_nil]
      omega
  · refine ⟨[g / 0x1000, g / 0x100 % 0x10, g / 0x10 % 0x10, g % 0x10], if_neg h₃,
      List.cons_ne_nil _ _, by simp, ?_, ?_⟩
    · simp only [List.mem_cons, List.not_mem_nil, or_false, forall_eq_or_imp, forall_eq]
      omega
    · simp only [List.foldl_cons, List.foldl_nil]
      omega

theorem hexText_ne_nil {g : Nat} (hg : g < 65536) : hexText g ≠ [] := by
  obtain ⟨ds, htext, hne, _⟩ := exists_digits hg
  rw [htext]
  exact mt List.map_eq_nil_iff.mp hne

theorem notMem_hexText {g : Nat} (hg : g < 65536) : 58 ∉ hexText g ∧ 45 ∉ hexText g := by
  obtain ⟨ds, htext, _, _, hlt, _⟩ := exists_digits hg
  rw [htext]
  constructor <;> intro hmem <;> obtain ⟨d, hd, heq⟩ := List.mem_map.mp hmem
  · exact (hexDigit_ne d (hlt d hd)).1 heq
  · exact (hexDigit_ne d (hlt d hd)).2 heq

theorem inetPtonLoop_digits {curtok rest : CString} {gs : List Nat} {colonp : Option Nat} {ds : List Nat}
    (hlt : ∀ d ∈ ds, d < 16) {seen val : Nat} (hseen : seen + ds.length ≤ 4) :
    inetPtonLoop curtok (ds.map hexDigit ++ rest) ⟨gs, colonp, seen, val⟩ =
      inetPtonLoop curtok rest ⟨gs, colonp, seen + ds.length, ds.foldl (fun n d => n * 16 + d) val⟩ := by
  induction ds generalizing seen val with
  | nil => rfl
  | cons d ds ih =>
    rw [List.length_cons] at hseen
    rw [List.map_cons, List.cons_append, inetPtonLoop, hexValue_hexDigit d (hlt d List.mem_cons_self)]
    dsimp only
    rw [if_neg (by omega), ih (fun d hd => hlt d (List.mem_cons_of_mem _ hd)) (by omega), List.length_cons,
      List.foldl_cons, Nat.add_right_comm, Nat.add_assoc]

theorem inetPtonLoop_hexText {g : Nat} (hg : g < 65536) (curtok rest : CString) (gs : List Nat)
    (colonp : Option Nat) : ∃ seen, seen ≠ 0 ∧
      inetPtonLoop curtok (hexText g ++ rest) ⟨gs, colonp, 0, 0⟩ =
        inetPtonLoop curtok rest ⟨gs, colonp, seen, g⟩ := by
  obtain ⟨ds, htext, hne, hlen, hlt, hval⟩ := exists_digits hg
  refine ⟨ds.length, mt List.eq_nil_of_length_eq_zero hne, ?_⟩
  rw [htext, inetPtonLoop_digits hlt (by omega), hval, Nat.zero_add]

def terminated (gs : List Nat) : CString := gs.flatMap fun g => hexText g ++ [58]

theorem inetPtonLoop_terminated {new : List Nat} (hnew : ∀ g ∈ new, g < 65536) {rest : CString}
    (hrest : rest ≠ []) {gs : List Nat} {colonp : Option Nat} (hlen : gs.length + new.length ≤ 8) :
    inetPtonLoop (terminated new ++ rest) (terminated new ++ rest) ⟨gs, colonp, 0, 0⟩ =
      inetPtonLoop rest rest ⟨gs ++ new, colonp, 0, 0⟩ := by
  induction new generalizing gs with
  | nil => rw [List.append_nil]; rfl
  | cons g new ih =>
    have htext : terminated (g :: new) ++ rest = hexText g ++ 58 :: (terminated new ++ rest) := by
      rw [terminated, List.flatMap_cons, List.append_assoc, List.append_assoc]
      rfl
    rw [List.length_cons] at hlen
    obtain ⟨seen, hseen, hread⟩ := inetPtonLoop_hexText (hnew g List.mem_cons_self)
      (hexText g ++ 58 :: (terminated new ++ rest)) (58 :: (terminated new ++ rest)) gs colonp
    have hmore : ¬(terminated new ++ rest = [] ∨ 8 < gs.length + 1) := by
      rintro (hnil | hfull)
      · exact hrest (List.append_eq_nil_iff.mp hnil).2
      · omega
    rw [htext, hread, inetPtonLoop, show hexValue 58 = none from rfl]
    dsimp only
    rw [if_pos rfl, if_neg hseen, if_neg hmore, ih (fun g hg => hnew g (List.mem_cons_of_mem _ hg)),
      List.append_assoc, List.singleton_append]
    rw [List.length_append, List.length_singleton]
    omega

/-- What `::` begins with where no group stands before it. -/
def lead (gs : List Nat) : CString := if gs = [] then [58] else []

theorem skipColon_terminated {gs : List Nat} (hgs : ∀ g ∈ gs, g < 65536) {rest : CString}
    (hrest : gs = [] → rest.head? = some 58) :
    skipColon (lead gs ++ (terminated gs ++ rest)) = some (terminated gs ++ rest) := by
  unfold skipColon lead
  cases gs with
  | nil =>
    have hhead := hrest rfl
    exact (if_pos rfl).trans (if_pos hhead)
  | cons g gs =>
    obtain ⟨b, s, hbs⟩ := List.exists_cons_of_ne_nil (hexText_ne_nil (hgs g List.mem_cons_self))
    have hb : b ≠ 58 := by
      rintro rfl
      exact (notMem_hexText (hgs g List.mem_cons_self)).1 (hbs ▸ List.mem_cons_self)
    rw [if_neg (List.cons_ne_nil g gs), List.nil_append, terminated, List.flatMap_cons, hbs]
    exact if_neg fun h => hb (Option.some.inj h)

theorem inetPton_terminated {gs : List Nat} (hgs : ∀ g ∈ gs, g < 65536) (hlen : gs.length ≤ 8) {rest : CString}
    (hne : rest ≠ []) (hrest : gs = [] → rest.head? = some 58) :
    inetPton (lead gs ++ (terminated gs ++ rest)) =
      ((inetPtonLoop rest rest ⟨gs, none, 0, 0⟩).bind Reader.finish).map ofGroups := by
  have hread : inetPtonLoop (terminated gs ++ rest) (terminated gs ++ rest) ⟨[], none, 0, 0⟩ =
      inetPtonLoop rest rest ⟨[] ++ gs, none, 0, 0⟩ :=
    inetPtonLoop_terminated hgs hne (by simpa using hlen)
  rw [inetPton, skipColon_terminated hgs hrest]
  change ((inetPtonLoop _ _ _).bind fun r => r.finish.bind fun gs => some (ofGroups gs)) = _
  rw [hread, List.nil_append]
  cases inetPtonLoop rest rest ⟨gs, none, 0, 0⟩ with
  | none => rfl
  | some r => cases hfinish : r.finish <;> simp [hfinish]

theorem joined_append_colon {gs : List Nat} (hgs : gs ≠ []) : joined gs ++ [58] = terminated gs := by
  induction gs with
  | nil => exact absurd rfl hgs
  | cons g gs ih =>
    cases gs with
    | nil => simp [joined, terminated, List.intercalate]
    | cons h gs =>
      have hjoined : joined (g :: h :: gs) = hexText g ++ [58] ++ joined (h :: gs) := by
        simp [joined, List.intercalate]
      rw [hjoined, List.append_assoc, ih (List.cons_ne_nil h gs), terminated, List.flatMap_cons]
      rfl

theorem joined_append_colons (gs : List Nat) :
    joined gs ++ [58, 58] = lead gs ++ (terminated gs ++ [58]) := by
  unfold lead
  split
  next hnil => rw [hnil]; rfl
  next hgs => rw [← joined_append_colon hgs, List.append_assoc, List.nil_append]; rfl

theorem tokens_terminated {gs : List Nat} (hgs : ∀ g ∈ gs, g < 65536) (s : CString) :
    CString.tokens 58 (terminated gs ++ s) = gs.map hexText ++ CString.tokens 58 s := by
  induction gs with
  | nil => rfl
  | cons g gs ih =>
    have htext : terminated (g :: gs) ++ s = hexText g ++ 58 :: (terminated gs ++ s) := by
      rw [terminated, List.flatMap_cons, List.append_assoc, List.append_assoc]
      rfl
    rw [htext, CString.tokens_append (notMem_hexText (hgs g List.mem_cons_self)).1,
      ih fun g hg => hgs g (List.mem_cons_of_mem _ hg)]
    rfl

theorem notMem_terminated {gs : List Nat} (hgs : ∀ g ∈ gs, g < 65536) : 45 ∉ terminated gs := by
  intro hmem
  obtain ⟨g, hg, hin⟩ := List.mem_flatMap.mp hmem
  rcases List.mem_append.mp hin with h | h
  · exact (notMem_hexText (hgs g hg)).2 h
  · exact absurd (List.mem_singleton.mp h) (by decide)

theorem inetPtonLoop_gap (rest : CString) (gs : List Nat) :
    inetPtonLoop (58 :: rest) (58 :: rest) ⟨gs, none, 0, 0⟩ =
      inetPtonLoop rest rest ⟨gs, some gs.length, 0, 0⟩ := rfl

theorem ofGroups_groups (a : BitVec 128) : ofGroups (groups a) = a := by
  apply BitVec.eq_of_toNat_eq
  have hlt := a.isLt
  simp [ofGroups, groups, List.range, List.range.loop]
  omega

end Laws

end Inet6

end G361FPlatform.Library
