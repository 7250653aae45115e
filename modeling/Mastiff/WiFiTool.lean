import Mastiff.Lib.ShellWords
import Mathlib.Data.Int.Notation

/-!
# The WiFi tool

`WiFiTool` (`chassis/drivers/soc/network/wifi_tool.cc`) carries out a `WifiSetting` by
running a script. `ReplaceString`, which is to quote the name and the password of a network,
does nothing, and `WiFiOperate` refuses a setting that has a name.

`not_delivers` : no setting that is to connect or to create an access point is treated as
it should be. `connectWiFi_words` : a name and a password that are plain would reach the
script unchanged.
-/

namespace Mastiff.Soc

open Shell

/-! ## Settings -/

/-- `EE_WIFI_FUNCTIONS`, with the numbers that it does not name. -/
inductive WifiFunction
  | getMode
  | getIp
  | getMac
  | getDns
  | getWpaInfo
  | getName
  | getRouterMac
  | getStatus
  | getScanList
  | getReconnect
  | disconnect
  | checkConnection
  | testSpeed
  | connect
  | createAp
  | close
  | start
  | other (n : ℤ)
  deriving DecidableEq

/-- `WifiAuthInfo`, whose two fields can be missing. -/
structure WifiAuthInfo where
  ssid : Option String := none
  pswd : Option String := none
  deriving DecidableEq

/-- `WifiSetting`, with the `auth_info()` that its reader sees. -/
structure WifiSetting where
  wifiFunc : WifiFunction := .getMode
  authInfo : WifiAuthInfo := {}
  deriving DecidableEq

/-! ## Commands -/

/-- What a function of the tool returns, and the command lines that it has run. -/
abbrev Ran (α : Type) := α × List String

def WIFI_SCRIPTS : String :=
  "/userdata/wifi/wifi_tool.sh"

/-- What is left of the output of a command : one newline at its end is dropped. -/
def dropNewline (output : String) : String :=
  if output.toList.getLast? = some '\n' then String.ofList output.toList.dropLast else output

/-- `ReplaceString`, whose body is commented out. -/
def replaceString (str _target _replace : String) : String :=
  str

inductive Mode
  | none
  | ap
  | sta
  | sniffer
  deriving DecidableEq

namespace WiFiTool

-- `sh` gives the output of a command line that is run
variable (sh : String → String)

/-- `Run`. -/
def run (cmd : String) : Ran String :=
  (dropNewline (sh cmd), [cmd])

/-- `RunScripts`. -/
def runScripts (args : String) : Ran String :=
  run sh (WIFI_SCRIPTS ++ " '" ++ args ++ "'")

def getCurrentMode : Ran Mode :=
  let output := run sh (WIFI_SCRIPTS ++ " mode")
  (if output.1 = "managed" then .sta
    else if output.1 = "master" ∨ output.1 = "AP" then .ap
    else if output.1 = "monitor" then .sniffer
    else .none, output.2)

def mode2Str : Mode → String
  | .none => "unknown"
  | .ap => "ap"
  | .sta => "sta"
  | .sniffer => "sniffer"

/-- The command line of `ConnectWiFi` and `CreateAp`, which differ in the first word. -/
def authCommand (word ssid pwd : String) : String :=
  WIFI_SCRIPTS ++ word ++ replaceString ssid "'" "\\'" ++ " " ++ replaceString pwd "'" "\\'"

def connectWiFi (ssid pwd : String) : Ran String :=
  run sh (authCommand " 'conn' " ssid pwd)

def createAp (ssid pwd : String) : Ran String :=
  run sh (authCommand " 'ap' " ssid pwd)

/-- `CheckConnection`. -/
def checkConnection : Ran Bool :=
  let output := runScripts sh "ping"
  (output.1 = "网络连接正常", output.2)

/-- The cases of `WiFiOperate` that take a name and a password. -/
def withAuth (w : WifiSetting) (act : String → String → Ran String) : Ran String :=
  if w.authInfo.ssid.isSome then ("ssid incorrect", [])
  else ("OK", (act (w.authInfo.ssid.getD "") (w.authInfo.pswd.getD "")).2)

/-- `WiFiOperate`. -/
def wiFiOperate (w : WifiSetting) : Ran String :=
  match w.wifiFunc with
  | .getMode => (mode2Str (getCurrentMode sh).1, (getCurrentMode sh).2)
  | .getIp => runScripts sh "ip"
  | .getMac => runScripts sh "mac"
  | .getDns => runScripts sh "dns"
  | .getWpaInfo => runScripts sh "info"
  | .getName => runScripts sh "name"
  | .getRouterMac => runScripts sh "bssid"
  | .getStatus => runScripts sh "status"
  | .getScanList => runScripts sh "list"
  | .getReconnect => ("OK", (runScripts sh "reconnect").2)
  | .disconnect => ("OK", (runScripts sh "break").2)
  | .checkConnection =>
    (if (checkConnection sh).1 then "OK" else "Failed", (checkConnection sh).2)
  -- the time goes to a variable of its own, and the result stays empty
  | .testSpeed => ("", (run sh (WIFI_SCRIPTS ++ " speed")).2)
  | .connect => withAuth w (connectWiFi sh)
  | .createAp => withAuth w (createAp sh)
  | .close | .start | .other _ => ("unknown wifi operate", [])

/-! ## What reaches the script -/

/-- A setting for the script's command `word` is treated as it should be : with a name and
a password one command line is run, whose words are those of the setting, and without a
name none. -/
def Delivers (word : String) (w : WifiSetting) (cmds : List String) : Prop :=
  (∀ s p, w.authInfo.ssid = some s → w.authInfo.pswd = some p →
      ∃ line, cmds = [line] ∧ shellWords line = some [WIFI_SCRIPTS, word, s, p]) ∧
    (w.authInfo.ssid = none → cmds = [])

/-- The word of the script for a function that takes a name and a password. -/
def authWord : WifiFunction → Option String
  | .connect => some "conn"
  | .createAp => some "ap"
  | _ => none

variable {sh}

/-- A command is run exactly if the name is missing, against what is meant. -/
theorem withAuth_commands (w : WifiSetting) (word : String) :
    (withAuth w fun s p => run sh (authCommand word s p)).2 =
      if w.authInfo.ssid.isSome then []
      else [authCommand word (w.authInfo.ssid.getD "") (w.authInfo.pswd.getD "")] := by
  rw [withAuth]
  split_ifs <;> rfl

/-- A setting that is to connect or to create an access point is never treated as it should
be : with a name no command is run, and without one a command is. -/
theorem not_delivers (sh : String → String) {w : WifiSetting} {word : String}
    (hword : authWord w.wifiFunc = some word)
    (hauth : w.authInfo.ssid = none ∨ ∃ p, w.authInfo.pswd = some p) :
    ¬Delivers word w (wiFiOperate sh w).2 := by
  have hcmds : ∃ first, (wiFiOperate sh w).2 =
      if w.authInfo.ssid.isSome then []
      else [authCommand first (w.authInfo.ssid.getD "") (w.authInfo.pswd.getD "")] := by
    cases hfunc : w.wifiFunc <;> rw [hfunc] at hword <;> simp only [authWord, reduceCtorEq] at hword
    · exact ⟨" 'conn' ", by rw [wiFiOperate, hfunc]; exact withAuth_commands w _⟩
    · exact ⟨" 'ap' ", by rw [wiFiOperate, hfunc]; exact withAuth_commands w _⟩
  obtain ⟨first, hcmds⟩ := hcmds
  rintro ⟨hboth, hmissing⟩
  cases hs : w.authInfo.ssid with
  | none =>
    rw [hmissing hs, hs] at hcmds
    exact absurd hcmds (by simp)
  | some s =>
    obtain ⟨p, hp⟩ := hauth.resolve_left (by simp [hs])
    obtain ⟨line, hline, -⟩ := hboth s p hs hp
    rw [hline, hs] at hcmds
    exact absurd hcmds (by simp)

/-- The name and the password of a network are refused. -/
theorem not_delivers_connect :
    ¬Delivers "conn" ⟨.connect, ⟨some "home", some "secret"⟩⟩
      (wiFiOperate (fun _ => "") ⟨.connect, ⟨some "home", some "secret"⟩⟩).2 :=
  not_delivers _ rfl (.inr ⟨_, rfl⟩)

/-- A network's name and password do not reach the script. -/
theorem not_forall_delivers :
    ¬∀ (sh : String → String) (w : WifiSetting) (word : String),
      authWord w.wifiFunc = some word → Delivers word w (wiFiOperate sh w).2 := by
  intro h
  obtain ⟨line, hline, -⟩ :=
    (h (fun _ => "") ⟨.connect, ⟨some "home", some "secret"⟩⟩ "conn" rfl).1 "home" "secret" rfl rfl
  exact absurd (show [] = [line] from hline) (by simp)

/-! ## Plain names -/

theorem shellWords_authCommand {word s p : String} {first : List Char}
    (hfirst : (WIFI_SCRIPTS ++ word).toList.foldlM Reader.read {} =
      some ⟨.plain, none, [WIFI_SCRIPTS.toList, first]⟩)
    (hs : ∀ c ∈ s.toList, IsPlain c) (hsne : s ≠ "") (hp : ∀ c ∈ p.toList, IsPlain c)
    (hpne : p ≠ "") :
    shellWords (authCommand word s p) = some [WIFI_SCRIPTS, String.ofList first, s, p] := by
  have hname : (WIFI_SCRIPTS ++ word ++ s).toList.foldlM Reader.read {} =
      some ⟨.plain, some s.toList, [WIFI_SCRIPTS.toList, first]⟩ := by
    rw [String.toList_append, List.foldlM_append, hfirst]
    exact foldlM_plain hs (by simpa using hsne) none _
  have hblank : (WIFI_SCRIPTS ++ word ++ s ++ " ").toList.foldlM Reader.read {} =
      some ⟨.plain, none, [WIFI_SCRIPTS.toList, first, s.toList]⟩ := by
    rw [String.toList_append, List.foldlM_append, hname]
    rfl
  change shellWords (WIFI_SCRIPTS ++ word ++ s ++ " " ++ p) = _
  rw [shellWords_append hblank, foldlM_plain hp (by simpa using hpne)]
  simp [Reader.finish, Reader.endWord]

/-- A plain name and a plain password would reach the script unchanged. -/
theorem connectWiFi_words (sh : String → String) {s p : String} (hs : ∀ c ∈ s.toList, IsPlain c)
    (hsne : s ≠ "") (hp : ∀ c ∈ p.toList, IsPlain c) (hpne : p ≠ "") :
    (connectWiFi sh s p).2.map shellWords = [some [WIFI_SCRIPTS, "conn", s, p]] := by
  have hfirst : (WIFI_SCRIPTS ++ " 'conn' ").toList.foldlM Reader.read {} =
      some ⟨.plain, none, [WIFI_SCRIPTS.toList, "conn".toList]⟩ := by decide
  have hwords := shellWords_authCommand hfirst hs hsne hp hpne
  rw [String.ofList_toList] at hwords
  exact congrArg (fun ws => [ws]) hwords

end WiFiTool

end Mastiff.Soc
