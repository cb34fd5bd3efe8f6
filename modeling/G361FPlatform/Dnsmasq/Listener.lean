import G361FPlatform.Library.CString

namespace G361FPlatform.Dnsmasq

open Library CString

/-- What a command from netd calls. -/
inductive Invocation
  | setServers (servers : CString)
  | checkServers
  | setModeOfRa (mode : CString)
  | ifaceJoinMulticast (params : CString)
  deriving DecidableEq, Repr

/-- The character `|`. -/
def BAR : UInt8 := 124

/-- One turn of the loop of `check_android_listeners`: the calls, and `retcode` after it. -/
def runCommand (currentCmd : CString) (retcode : Int) : List Invocation × Int :=
  let cmd := (strsep BAR currentCmd).1
  let params := (strsep BAR currentCmd).2
  if cmd = ("update_dns" : CString) then
    match params with
    | some params => ([.setServers params, .checkServers], retcode)
    | none => ([], -1)
  else if cmd = ("update_v6dns" : CString) then
    match params with
    | some params => ([.setServers params, .checkServers], retcode)
    | none => ([], -1)
  else if cmd = ("update_ra" : CString) then
    match params with
    | some params => ([.setModeOfRa params], retcode)
    | none => ([], -1)
  else if cmd = ("join_multicast" : CString) then
    match params with
    | some params => ([.ifaceJoinMulticast params], retcode)
    | none => ([], -1)
  else ([], -1)

/-- The loop over what is left of the buffer; a turn takes a byte at least. -/
def consume : Nat → List UInt8 → Int → List Invocation × Int
  | 0, _, retcode => ([], retcode)
  | _ + 1, [], retcode => ([], retcode)
  | turns + 1, b :: bytes, retcode =>
    let currentCmd := (b :: bytes).takeWhile (· ≠ 0)
    let ran := runCommand currentCmd retcode
    let rest := consume turns ((b :: bytes).drop (currentCmd.length + 1)) ran.2
    (ran.1 ++ rest.1, rest.2)

/-- With what `read` gave, 1023 bytes at most. -/
def checkAndroidListeners (read : Option (List UInt8)) : List Invocation × Int :=
  match read with
  | none => ([], -1)
  | some bytes => consume bytes.length bytes 0

end G361FPlatform.Dnsmasq
