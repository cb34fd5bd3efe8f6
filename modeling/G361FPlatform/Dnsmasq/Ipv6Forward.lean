import G361FPlatform.Library.CString
import G361FPlatform.Dnsmasq.Ra

namespace G361FPlatform.Dnsmasq

open Library CString

/-- The rules of `natctrl_FORWARD` that the daemon makes, by what their texts differ in. -/
inductive Rule
  /-- `-p tcp --tcp-flags SYN,RST SYN -j TCPMSS --clamp-mss-to-pmtu` -/
  | tcpmss
  /-- `-i inf -o outf -j RETURN` -/
  | forward (inf outf : CString)
  /-- `-i inf -o outf -m iprange --src-range src -j RETURN` -/
  | range (inf outf src : CString)
  /-- `-i inf -j DROP` -/
  | block (inf : CString)
  deriving DecidableEq, Repr

inductive ChainAction
  | append | delete
  deriving DecidableEq, Repr

structure ChainCommand where
  action : ChainAction
  rule : Rule
  deriving DecidableEq, Repr

/-- How `ip6tables` answers a command, and what becomes of the chain. -/
abbrev Tables (κ : Type u) := ChainCommand → κ → Bool × κ

/-- Whether the text of a prefix has four groups. -/
def delLastColonOfPrefix (text : CString) : Bool := (tokens 58 text).countP (· ≠ []) = 4

def srcRange (ntop : In6Addr → CString) (p : In6Addr) : CString :=
  let activePrefix := ntop p
  if delLastColonOfPrefix activePrefix then
    let activePrefix := activePrefix.dropLast
    activePrefix ++ (":-" : CString) ++ activePrefix ++ ("ffff:ffff:ffff:ffff" : CString)
  else activePrefix ++ ("-" : CString) ++ activePrefix ++ ("ffff:ffff:ffff:ffff" : CString)

section

variable (tables : Tables κ) (ntop : In6Addr → CString)

/-- What every rule is set by: where it is added, it is deleted first. -/
def setRule (rule : Rule) (add : Bool) (k : κ) : Bool × κ :=
  if add then
    let flushed := tables ⟨.delete, rule⟩ k
    if flushed.1 = false then flushed else tables ⟨.append, rule⟩ flushed.2
  else tables ⟨.delete, rule⟩ k

def setBlockRule (intInterface : CString) (add : Bool) (k : κ) : Bool × κ :=
  setRule tables (.block intInterface) add k

/-- The result of a deletion is not looked at. -/
def setForwardFromExtToInt (intInterface extInterface : CString) (add : Bool) (k : κ) : Bool × κ :=
  let done := setRule tables (.forward extInterface intInterface) add k
  (done.1 || !add, done.2)

/-- Where the new rule cannot be added, the one for the other direction is taken out again. -/
def setForwardFromIntToExt (newPrefix : In6Addr) (intInterface extInterface : CString) (add : Bool) (k : κ) :
    Bool × κ :=
  let rule := Rule.range intInterface extInterface (srcRange ntop newPrefix)
  if add then
    let flushed := tables ⟨.delete, rule⟩ k
    if flushed.1 = false then flushed
    else
      let set := tables ⟨.append, rule⟩ flushed.2
      if set.1 = false then (false, (tables ⟨.delete, .forward extInterface intInterface⟩ set.2).2) else set
  else (true, (tables ⟨.delete, rule⟩ k).2)

def setTcpmss (add : Bool) (k : κ) : Bool × κ :=
  let done := setRule tables .tcpmss add k
  (done.1 || !add, done.2)

def activeNewPrefix (newPrefix : In6Addr) (intInterface extInterface : CString) (k : κ) : κ :=
  let k := (setTcpmss tables true k).2
  let k := (setForwardFromExtToInt tables intInterface extInterface true k).2
  let k := (setForwardFromIntToExt tables ntop newPrefix intInterface extInterface true k).2
  (setBlockRule tables intInterface true k).2

def deprecateOldPrefix (oldPrefix : In6Addr) (intInterface extInterface : CString) (k : κ) :
    Int × κ :=
  if oldPrefix = 0 then (-1, k)
  else
    let k := (setTcpmss tables false k).2
    let k := (setForwardFromExtToInt tables intInterface extInterface false k).2
    let k := (setForwardFromIntToExt tables ntop oldPrefix intInterface extInterface false k).2
    (1, (setBlockRule tables intInterface false k).2)

end

end G361FPlatform.Dnsmasq
