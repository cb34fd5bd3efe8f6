import Mathlib.Data.List.Basic

namespace G361FPlatform.Library

abbrev CString := List UInt8

namespace CString

def ofString (s : String) : CString := s.toList.map fun c => UInt8.ofNat c.toNat

def isSpace (b : UInt8) : Bool := b = 32 || (9 ≤ b && b ≤ 13)

/-- `strsep` by one delimiter: the token, and what the pointer is left at. -/
def strsep (delim : UInt8) : CString → CString × Option CString
  | [] => ([], none)
  | b :: s => if b = delim then ([], some s) else (b :: (strsep delim s).1, (strsep delim s).2)

def tokens (delim : UInt8) : CString → List CString
  | [] => [[]]
  | b :: s =>
    match tokens delim s with
    | [] => [[b]]
    | t :: ts => if b = delim then [] :: t :: ts else (b :: t) :: ts

variable {delim : UInt8} {s token rest : CString}

theorem eq_of_strsep (h : strsep delim s = (token, some rest)) : s = token ++ delim :: rest := by
  induction s generalizing token with
  | nil => cases h
  | cons b s ih =>
    rw [strsep] at h
    split at h
    next hb =>
      cases h
      rw [hb, List.nil_append]
    · obtain ⟨htoken, hrest⟩ := Prod.mk.inj h
      rw [← htoken, List.cons_append, ← ih (Prod.ext rfl hrest)]

theorem strsep_append (h : delim ∉ token) (s : CString) :
    strsep delim (token ++ delim :: s) = (token, some s) := by
  induction token with
  | nil => exact if_pos rfl
  | cons b token ih =>
    obtain ⟨hb, htoken⟩ := not_or.mp (mt List.mem_cons.mpr h)
    rw [List.cons_append, strsep, ih htoken]
    exact if_neg (Ne.symm hb)

theorem exists_tokens (delim : UInt8) (s : CString) : ∃ t ts, tokens delim s = t :: ts := by
  cases s with
  | nil => exact ⟨[], [], rfl⟩
  | cons b s =>
    rw [tokens]
    split
    · exact ⟨_, _, rfl⟩
    · split
      · exact ⟨_, _, rfl⟩
      · exact ⟨_, _, rfl⟩

theorem strsep_of_notMem (h : delim ∉ token) : strsep delim token = (token, none) := by
  induction token with
  | nil => rfl
  | cons b token ih =>
    obtain ⟨hb, htoken⟩ := not_or.mp (mt List.mem_cons.mpr h)
    rw [strsep, ih htoken]
    exact if_neg (Ne.symm hb)

def join (delim : UInt8) : List CString → Option CString
  | [] => none
  | token :: tokens => some (token ++ tokens.flatMap (delim :: ·))

theorem join_cons (delim : UInt8) (token : CString) (tokens : List CString) :
    join delim (token :: tokens) = some (token ++ tokens.flatMap (delim :: ·)) := rfl

theorem strsep_join {tokens : List CString} (h : delim ∉ token) :
    strsep delim (token ++ tokens.flatMap (delim :: ·)) = (token, join delim tokens) := by
  cases tokens with
  | nil => rw [List.flatMap_nil, List.append_nil, strsep_of_notMem h, join]
  | cons next tokens => rw [List.flatMap_cons, List.cons_append, strsep_append h, join_cons]

theorem tokens_of_notMem (h : delim ∉ token) : tokens delim token = [token] := by
  induction token with
  | nil => rfl
  | cons b s ih =>
    obtain ⟨hb, hs⟩ := not_or.mp (mt List.mem_cons.mpr h)
    rw [tokens, ih hs]
    exact if_neg (Ne.symm hb)

theorem tokens_append (h : delim ∉ token) (s : CString) :
    tokens delim (token ++ delim :: s) = token :: tokens delim s := by
  induction token with
  | nil =>
    obtain ⟨t, ts, hs⟩ := exists_tokens delim s
    rw [List.nil_append, tokens, hs]
    exact if_pos rfl
  | cons b token ih =>
    obtain ⟨hb, htoken⟩ := not_or.mp (mt List.mem_cons.mpr h)
    rw [List.cons_append, tokens, ih htoken]
    exact if_neg (Ne.symm hb)

end CString

instance : Coe String CString := ⟨CString.ofString⟩

end G361FPlatform.Library
