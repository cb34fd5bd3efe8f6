import Mathlib.Data.List.Induction

namespace G361FPlatform.Library

/-- A list of options in bytes: a pad, the end, or a code with the length of a value and the value. -/
structure OptionEntry where
  code : UInt8
  value : List UInt8
  tail : List UInt8
  deriving DecidableEq

namespace OptionList

variable (pad stop : UInt8)

/-- The options up to the end, or to the first one that does not fit.  Each comes with the bytes
behind it. -/
def parse : List UInt8 → List OptionEntry
  | [] => []
  | code :: bs =>
    if code = pad then parse bs
    else if code = stop then []
    else
      match bs with
      | [] => []
      | length :: bs =>
        if bs.length < length.toNat then []
        else
          ⟨code, bs.take length.toNat, bs.drop length.toNat⟩ :: parse (bs.drop length.toNat)
termination_by bs => bs.length
decreasing_by
  · simp
  · simp only [List.length_drop, List.length_cons]
    omega

def last (p : OptionEntry → Bool) (opts : List OptionEntry) : Option OptionEntry :=
  (opts.filter p).getLast?

variable {pad stop}

@[simp] theorem parse_nil : parse pad stop [] = [] := by rw [parse]

theorem parse_pad (bs : List UInt8) : parse pad stop (pad :: bs) = parse pad stop bs := by
  rw [parse.eq_def]
  exact if_pos rfl

theorem parse_stop (h : stop ≠ pad) (bs : List UInt8) : parse pad stop (stop :: bs) = [] := by
  rw [parse.eq_def]
  dsimp only
  rw [if_neg h, if_pos rfl]

theorem parse_code (code : UInt8) : parse pad stop [code] = [] := by
  rw [parse]
  split
  · exact parse_nil
  · split <;> rfl

section

variable {code length : UInt8} {bs : List UInt8}

theorem parse_cut (hpad : code ≠ pad) (h : bs.length < length.toNat) :
    parse pad stop (code :: length :: bs) = [] := by
  rw [parse, if_neg hpad]
  split
  · rfl
  · rfl

theorem parse_fits (hpad : code ≠ pad) (hstop : code ≠ stop) (h : length.toNat ≤ bs.length) :
    parse pad stop (code :: length :: bs) =
      ⟨code, bs.take length.toNat, bs.drop length.toNat⟩ :: parse pad stop (bs.drop length.toNat) := by
  rw [parse, if_neg hpad, if_neg hstop]
  exact if_neg (Nat.not_lt.mpr h)

end

theorem foldl_update (p : OptionEntry → Bool) (f : OptionEntry → α) (v : α) (opts : List OptionEntry) :
    opts.foldl (fun v o => if p o then f o else v) v = (last p opts).elim v f := by
  induction opts using List.reverseRecOn with
  | nil => rfl
  | append_singleton opts o ih =>
    rw [List.foldl_append, List.foldl_cons, List.foldl_nil, last, List.filter_append]
    by_cases ho : p o = true
    · rw [if_pos ho, List.filter_cons_of_pos ho, List.filter_nil, List.getLast?_concat]
      rfl
    · rw [if_neg ho, List.filter_cons_of_neg ho, List.filter_nil, List.append_nil]
      exact ih

theorem last_of_last {p q : OptionEntry → Bool} (hqp : ∀ o, q o = true → p o = true)
    {opts : List OptionEntry} {o : OptionEntry} (h : last p opts = some o) (ho : q o = true) :
    last q opts = some o := by
  obtain ⟨front, hfront⟩ := List.getLast?_eq_some_iff.mp h
  have hsub : opts.filter q = (opts.filter p).filter q := by
    rw [List.filter_filter]
    apply List.filter_congr
    intro a _
    cases hq : q a with
    | false => rfl
    | true => rw [hqp a hq, Bool.and_self]
  rw [last, hsub, hfront, List.filter_append, List.filter_cons_of_pos ho, List.filter_nil,
    List.getLast?_concat]

theorem last_eq_none {p q : OptionEntry → Bool} (hqp : ∀ o, q o = true → p o = true)
    {opts : List OptionEntry} (h : last p opts = none) : last q opts = none := by
  rw [last, List.getLast?_eq_none_iff, List.filter_eq_nil_iff] at h ⊢
  exact fun o ho hq => h o ho (hqp o hq)

theorem of_last {p : OptionEntry → Bool} {opts : List OptionEntry} {o : OptionEntry}
    (h : last p opts = some o) : p o = true :=
  (List.mem_filter.mp (List.mem_of_getLast? h)).2

end OptionList

end G361FPlatform.Library
