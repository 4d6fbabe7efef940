import Stellance.Library.Process
import Stellance.Backend.Balances
import Stellance.Frontend.JobsPage

/-! The wallet of the dashboard. Its store is shared by every component that uses the hook;
what the hook does is a script that writes the store at once and awaits the browser extension
or Horizon. Scripts of several components are under way together, and an answer may come
after the store has moved on. -/
namespace Stellance.Frontend
open Backend (BalanceLine)

/-! ### The store -/

inductive WalletStatus where
  | idle
  | checking
  | connected
  | disconnected
  deriving DecidableEq

structure WalletState where
  publicKey : Option String
  balance : Option String
  status : WalletStatus
  isLoadingBalance : Bool
  error : Option String
  deriving DecidableEq

namespace WalletState

def initial : WalletState where
  publicKey := none
  balance := none
  status := .idle
  isLoadingBalance := false
  error := none

variable (s : WalletState)

def setConnected (publicKey : String) : WalletState :=
  { s with publicKey := some publicKey, status := .connected, error := none }
def setBalance (balance : String) : WalletState := { s with balance := some balance }
def setStatus (status : WalletStatus) : WalletState := { s with status }
def setLoadingBalance (isLoadingBalance : Bool) : WalletState := { s with isLoadingBalance }
def setError (error : Option String) : WalletState := { s with error }

/-- Fully reset. -/
def disconnect (_ : WalletState) : WalletState :=
  { publicKey := none, balance := none, status := .disconnected, isLoadingBalance := false, error := none }

end WalletState

/-! ### The scripts -/

/-- What `isConnected` of the extension resolves to: a flag, or an object that may have one. -/
inductive ConnectionResult where
  | flag (isConnected : Bool)
  | object (isConnected : Option Bool)

def ConnectionResult.installed : ConnectionResult → Bool
  | flag isConnected => isConnected
  | object isConnected => isConnected.getD false

/-- What `requestAccess` and `getAddress` resolve to: a text, an object that may have an
address and may have an error, or nothing. -/
inductive AddressResult where
  | text (address : String)
  | object (address error : Option String)
  | nothing

/-- A value that was thrown. -/
inductive Thrown where
  | error (message : String)
  | other

namespace Wallet

/-- An update of the store and a look at the flag of the own effect are done at once, the
other operations are awaited. -/
inductive Op where
  | update (action : WalletState → WalletState)
  | cancelled
  | isConnected
  | requestAccess
  | getAddress
  | loadAccount (key : String)

abbrev Op.Answer : Op → Type
  | .update _ => Unit
  | .cancelled => Bool
  | .isConnected => ConnectionResult
  | .requestAccess | .getAddress => AddressResult
  | .loadAccount _ => List BalanceLine

abbrev Script := Process Thrown Op Op.Answer

def await (op : Op) : Script op.Answer := Process.perform op

def store (action : WalletState → WalletState) : Script Unit := await (.update action)

section Hook
open Process hiding await
variable (formatXlm : String → String)

def fetchBalance (key : String) : Script Unit := do
  store (·.setLoadingBalance true)
  tryCatch (fun _ => store (·.setBalance "—")) do
    let account ← await (.loadAccount key)
    store (·.setBalance ((account.findSome? BalanceLine.native?).elim "0.00" formatXlm))
  store (·.setLoadingBalance false)

def notFoundMessage : String := "Freighter wallet not found. Install it at freighter.app and reload."

def friendlyMsg (err : Thrown) : String :=
  let msg := match err with
    | .error message => message
    | .other => "Failed to connect wallet."
  if includes msg "not installed" || includes msg "not found" then notFoundMessage
  else if includes msg "User declined" || includes msg "rejected" then
    "Connection rejected. Click Connect Wallet to try again."
  else msg

/-- The key an access result holds, if it holds one. -/
def accessKey : AddressResult → Script (Option String)
  | .text address => pure (some address)
  | .object (some address) _ => pure (some address)
  | .object none (some error) => fail (.error error)
  | .object none none | .nothing => pure none

/-- The key is connected, if it is one. -/
def connectKey (key : Option String) : Script Unit := do
  let key ← orThrow (key.filter (· ≠ "")) (.error "No public key returned from Freighter.")
  store (·.setConnected key)
  fetchBalance formatXlm key

def connectFailed (err : Thrown) : Script Unit := do
  store (·.setError (some (friendlyMsg err)))
  store (·.setStatus .disconnected)

/-- On from the first answer of the extension. -/
def connectInstalled (installed : Bool) : Script Unit :=
  if installed then do
    let accessResult ← await .requestAccess
    let key ← accessKey accessResult
    connectKey formatXlm key
  else do
    store (·.setError (some notFoundMessage))
    store (·.setStatus .disconnected)

def connect : Script Unit := do
  store (·.setStatus .checking)
  store (·.setError none)
  tryCatch connectFailed do
    let connectionResult ← await .isConnected
    connectInstalled formatXlm connectionResult.installed

def refreshBalance (publicKey : Option String) : Script Unit :=
  match publicKey.filter (· ≠ "") with
  | some key => fetchBalance formatXlm key
  | none => pure ()

def addressKey : AddressResult → Option String
  | .text address => some address
  | .object address _ => address
  | .nothing => none

def restoreKey (key : Option String) : Script Unit :=
  match key.filter (· ≠ "") with
  | some key => do
    store (·.setConnected key)
    fetchBalance formatXlm key
  | none => store (·.setStatus .disconnected)

def reconnectFailed (_ : Thrown) : Script Unit := do
  let cancelled ← await .cancelled
  if cancelled then pure () else store (·.setStatus .disconnected)

/-- On from the first answer of the extension. -/
def reconnectInstalled (installed : Bool) : Script Unit :=
  if installed then do
    store (·.setStatus .checking)
    let addressResult ← await .getAddress
    let cancelled ← await .cancelled
    if cancelled then pure () else restoreKey formatXlm (addressKey addressResult)
  else store (·.setStatus .disconnected)

/-- The silent reconnection, as the effect of a component runs it. -/
def reconnect : Script Unit :=
  tryCatch reconnectFailed do
    let connectionResult ← await .isConnected
    let cancelled ← await .cancelled
    if cancelled then pure () else reconnectInstalled formatXlm connectionResult.installed

end Hook

/-- A script goes on until it awaits an answer from outside. -/
def settle (cancelled : Bool) : WalletState → Script Unit → WalletState × Script Unit
  | s, .await (.update action) next => settle cancelled (action s) (next (.ok ()))
  | s, .await .cancelled next => settle cancelled s (next (.ok cancelled))
  | s, rest => (s, rest)

/-! ### The components -/

/-- Where the hook is used. -/
inductive Surface where
  | walletConnect
  | walletBalance
  | applySection
  deriving DecidableEq

inductive Control where
  | connect
  | disconnect
  | refresh
  deriving DecidableEq

def freighterInstalled (s : WalletState) : Bool :=
  !s.error.any (fun error => includes error "not found") && !s.error.any (fun error => includes error "Install it")

/-- The controls that a component shows for a state of the store. -/
def Surface.offers (s : WalletState) : Surface → List Control
  | .walletConnect =>
    if s.status = .checking then []
    else if s.status = .connected ∧ s.publicKey.any (· ≠ "") = true then [.refresh, .disconnect]
    else if freighterInstalled s = false ∧ s.error.any (· ≠ "") = true then []
    else [.connect]
  | .walletBalance => if s.status = .connected ∧ s.isLoadingBalance = false then [.refresh] else []
  | .applySection => if s.status = .connected then [] else [.connect]

/-- A component on the page, with the state it was last rendered for. -/
structure Component where
  surface : Surface
  seen : WalletState
  mounted : Bool

/-- A script under way, the effect of a component or the work of a click. -/
structure Pending where
  effectOf : Option Nat
  cancelled : Bool
  rest : Script Unit

def Pending.cleanUp (index : Nat) (task : Pending) : Pending :=
  if task.effectOf = some index then { task with cancelled := true } else task

end Wallet

open Wallet

/-- All that goes on in one page of the dashboard. -/
structure WalletPage where
  store : WalletState
  components : List Component
  pending : List Pending

namespace WalletPage

def initial : WalletPage := ⟨.initial, [], []⟩

/-- What an awaited operation comes back with. -/
inductive Reply where
  | connection (result : Except Thrown ConnectionResult)
  | address (result : Except Thrown AddressResult)
  | account (result : Except Thrown (List BalanceLine))

def Reply.to : Reply → (op : Op) → Option (Except Thrown op.Answer)
  | .connection result, .isConnected => some result
  | .address result, .requestAccess | .address result, .getAddress => some result
  | .account result, .loadAccount _ => some result
  | _, _ => none

inductive Event where
  | mount (surface : Surface)
  | unmount (index : Nat)
  | render (index : Nat)
  | click (index : Nat) (control : Control)
  | answered (index : Nat) (reply : Reply)

/-- A script starts, and runs to its first await. -/
def start (page : WalletPage) (effectOf : Option Nat) (script : Script Unit) : WalletPage :=
  let settled := settle false page.store script
  { page with store := settled.1, pending := page.pending ++ [⟨effectOf, false, settled.2⟩] }

/-- The cleanup of the effect of a component. -/
def cleanUp (page : WalletPage) (index : Nat) : WalletPage :=
  { page with pending := page.pending.map (Pending.cleanUp index) }

variable (formatXlm : String → String)

/-- The effect of a component, for the status it was rendered for. -/
def runEffect (page : WalletPage) (index : Nat) (status : WalletStatus) : WalletPage :=
  if status = .idle then page.start (some index) (reconnect formatXlm) else page

def press (page : WalletPage) (seen : WalletState) : Control → WalletPage
  | .connect => page.start none (connect formatXlm)
  | .disconnect => { page with store := page.store.disconnect }
  | .refresh => page.start none (refreshBalance formatXlm seen.publicKey)

inductive Step (page : WalletPage) : Event → WalletPage → Prop where
  | mount (surface : Surface) :
      Step page (.mount surface)
        (runEffect formatXlm { page with components := page.components ++ [⟨surface, page.store, true⟩] }
          page.components.length page.store.status)
  | unmount {index : Nat} {surface : Surface} {seen : WalletState}
      (found : page.components[index]? = some ⟨surface, seen, true⟩) :
      Step page (.unmount index)
        { page.cleanUp index with components := page.components.set index ⟨surface, seen, false⟩ }
  | rendered {index : Nat} {surface : Surface} {seen : WalletState}
      (found : page.components[index]? = some ⟨surface, seen, true⟩) (same : seen.status = page.store.status) :
      Step page (.render index)
        { page with components := page.components.set index ⟨surface, page.store, true⟩ }
  | rerun {index : Nat} {surface : Surface} {seen : WalletState}
      (found : page.components[index]? = some ⟨surface, seen, true⟩) (changed : seen.status ≠ page.store.status) :
      Step page (.render index)
        (runEffect formatXlm
          (cleanUp { page with components := page.components.set index ⟨surface, page.store, true⟩ } index)
          index page.store.status)
  | click {index : Nat} {surface : Surface} {seen : WalletState} {control : Control}
      (found : page.components[index]? = some ⟨surface, seen, true⟩) (offered : control ∈ surface.offers seen) :
      Step page (.click index control) (page.press formatXlm seen control)
  | answered {index : Nat} {effectOf : Option Nat} {cancelled : Bool} {op : Op}
      {next : Except Thrown op.Answer → Script Unit} {reply : Reply} {answer : Except Thrown op.Answer}
      (found : page.pending[index]? = some (.mk effectOf cancelled (.await op next)))
      (fits : reply.to op = some answer) :
      Step page (.answered index reply)
        { page with
          store := (settle cancelled page.store (next answer)).1
          pending := page.pending.set index (Pending.mk effectOf cancelled (settle cancelled page.store (next answer)).2) }

/-- Every component has been rendered for the state the store is in. -/
def Rendered (page : WalletPage) : Prop :=
  ∀ component ∈ page.components, component.mounted = true → component.seen = page.store

/-- The components are rendered again before the next click or answer. -/
def Prompt (page : WalletPage) : Event → Prop
  | .click .. | .answered .. => page.Rendered
  | .mount _ | .unmount _ | .render _ => True

end WalletPage

end Stellance.Frontend
