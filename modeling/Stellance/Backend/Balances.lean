import Stellance.Backend.Interpreter
import Stellance.Backend.PaymentsService

/-! Wallet balances. They are what Horizon lists for the key of the user, cut down to the two
assets the platform knows. -/
namespace Stellance.Backend

inductive Network where
  | testnet
  | mainnet
  deriving DecidableEq

/-- `STELLAR_NETWORK` -/
def Network.ofSetting (setting : Option String) : Network :=
  if setting.getD "testnet" = "mainnet" then .mainnet else .testnet

structure WalletBalance where
  asset : Asset
  balance : String
  network : Network
  deriving DecidableEq

/-- A line of an account at Horizon. -/
inductive BalanceLine where
  | native (balance : String)
  | creditAlphanum4 (assetCode assetIssuer balance : String)
  | creditAlphanum12 (assetCode assetIssuer balance : String)
  | liquidityPoolShares (balance : String)
  deriving DecidableEq

namespace BalanceLine

def native? : BalanceLine → Option String
  | native balance => some balance
  | creditAlphanum4 .. | creditAlphanum12 .. | liquidityPoolShares _ => none

end BalanceLine

structure AccountResponse where
  balances : List BalanceLine
  oneNative : balances.countP (·.native?.isSome) ≤ 1

/-- What the request for an account throws. -/
inductive HorizonError where
  | notFound
  | network (status : Option Nat)
  | other
  deriving DecidableEq

def HorizonError.isNotFound : HorizonError → Bool
  | notFound => true
  | network status => status = some 404
  | other => false

def testnetUsdcIssuer : String := "GBBD47IF6LWK7P7MDEVSCWR7DPUWV3NY3DTQEVFL4NAT4AQH3ZLLFLA5"

namespace PaymentsService

def zeroBalances (network : Network) : List WalletBalance :=
  [⟨.xlm, "0.0000000", network⟩, ⟨.usdc, "0.00", network⟩]

/-- The body of the loop. -/
def collect (network : Network) (balances : List WalletBalance) : BalanceLine → List WalletBalance
  | .native balance => balances ++ [⟨.xlm, balance, network⟩]
  | .creditAlphanum4 assetCode assetIssuer balance =>
    if assetCode = "USDC" ∧ (network = .mainnet ∨ assetIssuer = testnetUsdcIssuer) then
      balances ++ [⟨.usdc, balance, network⟩]
    else balances
  | .creditAlphanum12 .. | .liquidityPoolShares _ => balances

def ensure (network : Network) (asset : Asset) (zero : String) (balances : List WalletBalance) :
    List WalletBalance :=
  match balances.find? (·.asset = asset) with
  | some _ => balances
  | none => balances ++ [⟨asset, zero, network⟩]

def getBalances (setting : Option String) (account : String → Except HorizonError AccountResponse)
    (db : Db) (userId : Uuid) : Except Failure (List WalletBalance) :=
  let network := Network.ofSetting setting
  match ((db.users.find userId).bind User.stellarPublicKey).filter (· ≠ "") with
  | none => .ok (zeroBalances network)
  | some stellarPublicKey =>
    match account stellarPublicKey with
    | .ok account =>
      let balances := account.balances.foldl (collect network) []
      .ok (ensure network .usdc "0.00" (ensure network .xlm "0.0000000" balances))
    | .error error =>
      if error.isNotFound then .ok (zeroBalances network)
      else .error (.http .serviceUnavailable
        "Could not fetch balances from Horizon — try again shortly.")

end PaymentsService

/-! ### The loop -/

section Loop
open PaymentsService
variable {network : Network} {balances : List WalletBalance} {asset other : Asset} {zero : String}

/-- What a line adds. -/
def BalanceLine.entry (network : Network) (line : BalanceLine) : Option WalletBalance :=
  (collect network [] line).head?

theorem collect_entry (line : BalanceLine) :
    collect network balances line = balances ++ (line.entry network).toList := by
  cases line with
  | native | creditAlphanum12 | liquidityPoolShares => simp [collect, BalanceLine.entry]
  | creditAlphanum4 =>
    simp only [collect, BalanceLine.entry, List.nil_append]
    split <;> simp

theorem collected (lines : List BalanceLine) :
    lines.foldl (collect network) balances = balances ++ lines.filterMap (·.entry network) := by
  induction lines generalizing balances with
  | nil => simp
  | cons line lines ih =>
    rw [List.foldl_cons, ih, collect_entry, List.append_assoc, List.filterMap_cons]
    cases line.entry network <;> rfl

/-- The entries of one asset. -/
def entries (asset : Asset) (balances : List WalletBalance) : List WalletBalance :=
  balances.filter (·.asset = asset)

theorem ensure_other (differ : other ≠ asset) :
    entries other (ensure network asset zero balances) = entries other balances := by
  unfold ensure
  split
  · rfl
  · simp [entries, List.filter_append, differ.symm]

theorem ensure_same : entries asset (ensure network asset zero balances) =
    if entries asset balances = [] then [⟨asset, zero, network⟩] else entries asset balances := by
  have absent : balances.find? (·.asset = asset) = none ↔ entries asset balances = [] := by
    rw [List.find?_eq_none, entries, List.filter_eq_nil_iff]
  unfold ensure
  split
  · rename_i entry found
    rw [if_neg]
    intro nothing
    rw [absent.mpr nothing] at found
    contradiction
  · rename_i missing
    rw [if_pos (absent.mp missing), entries, List.filter_append, ← entries, absent.mp missing]
    simp

end Loop

/-! ### One entry for each asset -/

/-- The balance of the native line, if there is one. -/
def AccountResponse.native (account : AccountResponse) : Option String :=
  account.balances.findSome? BalanceLine.native?

namespace BalanceLine

/-- The lines that are taken for USDC. -/
def accepted (network : Network) : BalanceLine → Bool
  | creditAlphanum4 assetCode assetIssuer _ =>
    assetCode = "USDC" && (network = .mainnet || assetIssuer = testnetUsdcIssuer)
  | native _ | creditAlphanum12 .. | liquidityPoolShares _ => false

/-- The asset that a trustline is for. -/
def trusted : BalanceLine → Option (String × String)
  | creditAlphanum4 assetCode assetIssuer _ | creditAlphanum12 assetCode assetIssuer _ =>
    some (assetCode, assetIssuer)
  | native _ | liquidityPoolShares _ => none

end BalanceLine

/-- One XLM entry, with the native balance or zero, and one USDC entry. -/
structure OnePerAsset (native : Option String) (balances : List WalletBalance) : Prop where
  xlm : ∃ network, entries .xlm balances = [⟨.xlm, native.getD "0.0000000", network⟩]
  usdc : ∃ entry, entries .usdc balances = [entry]

section Account
open PaymentsService
variable {network : Network} (account : AccountResponse)

theorem entry_xlm (line : BalanceLine) : (line.entry network).filter (·.asset = .xlm) =
    line.native?.map fun balance => ⟨.xlm, balance, network⟩ := by
  cases line with
  | native | creditAlphanum12 | liquidityPoolShares =>
    simp [collect, BalanceLine.entry, BalanceLine.native?]
  | creditAlphanum4 =>
    simp only [collect, BalanceLine.entry, BalanceLine.native?]
    split <;> simp

theorem entry_usdc (line : BalanceLine) :
    ((line.entry network).filter (·.asset = .usdc)).isSome = line.accepted network := by
  cases line with
  | native | creditAlphanum12 | liquidityPoolShares =>
    simp [collect, BalanceLine.entry, BalanceLine.accepted]
  | creditAlphanum4 =>
    simp only [collect, BalanceLine.entry, BalanceLine.accepted]
    split <;> simp_all

theorem native_entries : entries .xlm (account.balances.filterMap (·.entry network)) =
    (account.native.map fun balance => ⟨.xlm, balance, network⟩).toList := by
  have single : (account.balances.filterMap BalanceLine.native?).length ≤ 1 := by
    rw [List.length_filterMap_eq_countP]
    exact account.oneNative
  simp only [entries, List.filter_filterMap, entry_xlm, ← List.map_filterMap]
  rw [AccountResponse.native, ← List.head?_filterMap]
  match account.balances.filterMap BalanceLine.native?, single with
  | [], _ | [balance], _ => rfl

theorem usdc_entries : (entries .usdc (account.balances.filterMap (·.entry network))).length =
    account.balances.countP (·.accepted network) := by
  simp only [entries, List.filter_filterMap, List.length_filterMap_eq_countP, entry_usdc]

/-- What an account with a wallet is answered, entry by entry. -/
theorem listed_once_iff :
    OnePerAsset account.native (ensure network .usdc "0.00" (ensure network .xlm "0.0000000"
      (account.balances.foldl (collect network) []))) ↔
      account.balances.countP (·.accepted network) ≤ 1 := by
  rw [collected, List.nil_append, ← usdc_entries]
  have xlm : entries .xlm (ensure network .usdc "0.00" (ensure network .xlm "0.0000000"
      (account.balances.filterMap (·.entry network)))) =
      [⟨.xlm, account.native.getD "0.0000000", network⟩] := by
    rw [ensure_other (by decide), ensure_same, native_entries]
    cases account.native <;> simp
  have usdc : (∃ entry, entries .usdc (ensure network .usdc "0.00" (ensure network .xlm "0.0000000"
      (account.balances.filterMap (·.entry network)))) = [entry]) ↔
      (entries .usdc (account.balances.filterMap (·.entry network))).length ≤ 1 := by
    rw [ensure_same, ensure_other (by decide), ← List.length_eq_one_iff]
    split
    · rename_i nothing
      simp [nothing]
    · rename_i something
      have some_entry := List.length_pos_iff.mpr something
      omega
  constructor
  · intro once
    exact usdc.mp once.usdc
  · intro few
    exact ⟨⟨network, xlm⟩, usdc.mpr few⟩

/-- An account has one trustline for an asset, and on the test network USDC is one asset. -/
theorem testnet_accepted (distinct : (account.balances.filterMap BalanceLine.trusted).Nodup) :
    account.balances.countP (·.accepted .testnet) ≤ 1 := by
  have counted : account.balances.countP (·.accepted .testnet) ≤
      (account.balances.filterMap BalanceLine.trusted).count ("USDC", testnetUsdcIssuer) := by
    rw [List.count, List.countP_filterMap]
    refine List.countP_mono_left fun line _ accepted => ?_
    cases line with
    | creditAlphanum4 assetCode assetIssuer =>
      simpa [BalanceLine.accepted, BalanceLine.trusted] using accepted
    | native | creditAlphanum12 | liquidityPoolShares => contradiction
  exact counted.trans (List.nodup_iff_count_le_one.mp distinct _)

end Account

section Answers
open PaymentsService
variable {setting : Option String} {account : String → Except HorizonError AccountResponse} {db : Db}
  {userId : Uuid}

theorem zeroBalances_once (network : Network) : OnePerAsset none (zeroBalances network) :=
  ⟨⟨network, rfl⟩, _, rfl⟩

/-- Where there is no account to look at, both balances are zero. -/
theorem getBalances_absent (absent : ∀ stellarPublicKey,
      (db.users.find userId).bind User.stellarPublicKey = some stellarPublicKey →
      stellarPublicKey = "" ∨ ∃ error, account stellarPublicKey = .error error ∧ error.isNotFound = true) :
    ∃ balances, getBalances setting account db userId = .ok balances ∧ OnePerAsset none balances := by
  refine ⟨_, ?_, zeroBalances_once (Network.ofSetting setting)⟩
  unfold getBalances
  cases found : (db.users.find userId).bind User.stellarPublicKey with
  | none => rfl
  | some stellarPublicKey =>
    rw [Option.filter_some]
    rcases absent stellarPublicKey found with rfl | ⟨error, failed, missing⟩
    · rfl
    · split <;> simp_all

/-- The balances of an account have one entry for each asset exactly where at most one of its
lines is taken for USDC. -/
theorem getBalances_once_iff {stellarPublicKey : String} {lines : AccountResponse}
    (connected : (db.users.find userId).bind User.stellarPublicKey = some stellarPublicKey)
    (nonempty : stellarPublicKey ≠ "") (answered : account stellarPublicKey = .ok lines) :
    ∃ balances, getBalances setting account db userId = .ok balances ∧
      (OnePerAsset lines.native balances ↔
        lines.balances.countP (·.accepted (Network.ofSetting setting)) ≤ 1) := by
  refine ⟨_, ?_, listed_once_iff lines⟩
  unfold getBalances
  rw [connected, Option.filter_some, if_pos (by simpa using nonempty)]
  simp only [answered]

end Answers

namespace Sample

/-- An account with a line in XLM and some in USDC. -/
def horizonAccount (key : String) (lines : AccountResponse) : String → Except HorizonError AccountResponse :=
  fun asked => if asked = key then .ok lines else .error .notFound

def oneIssuer : AccountResponse where
  balances := [.native "42.5000000", .creditAlphanum4 "USDC" testnetUsdcIssuer "100.0000000"]
  oneNative := by decide

def twoIssuers : AccountResponse where
  balances := [.native "42.5000000",
    .creditAlphanum4 "USDC" "GA5ZSEJYB37JRC5AVCIA5MOP4RHTM335X2KGX3IHOJAPP5RE34K4KZVN" "100.0000000",
    .creditAlphanum4 "USDC" testnetUsdcIssuer "5.0000000"]
  oneNative := by decide

theorem connected : (start.world.db.users.find clientId).bind User.stellarPublicKey = some "client" := rfl

end Sample

section Once
open PaymentsService

/-- On the main network two issuers of a USDC make two entries. -/
theorem getBalances_twice : ¬ ∀ (setting : Option String)
    (account : String → Except HorizonError AccountResponse) (db : Db) (userId : Uuid)
    (stellarPublicKey : String) (lines : AccountResponse),
    (db.users.find userId).bind User.stellarPublicKey = some stellarPublicKey →
      stellarPublicKey ≠ "" → account stellarPublicKey = .ok lines →
      ∃ balances, getBalances setting account db userId = .ok balances ∧
        OnePerAsset lines.native balances := by
  intro always
  obtain ⟨balances, got, once⟩ := always (some "mainnet") (Sample.horizonAccount "client" Sample.twoIssuers) _ _ _ _
    Sample.connected (by decide) rfl
  have three : getBalances (some "mainnet") (Sample.horizonAccount "client" Sample.twoIssuers)
      Sample.start.world.db Sample.clientId =
      .ok [⟨.xlm, "42.5000000", .mainnet⟩, ⟨.usdc, "100.0000000", .mainnet⟩,
        ⟨.usdc, "5.0000000", .mainnet⟩] := rfl
  obtain rfl := Except.ok.inj (three.symm.trans got)
  have single := List.length_eq_one_iff.mpr once.usdc
  exact absurd single (by decide)

/-- An account that trusts the issuer of the test network alone. -/
theorem getBalances_once_iff_sample : ∃ balances,
    getBalances none (Sample.horizonAccount "client" Sample.oneIssuer) Sample.start.world.db Sample.clientId =
      .ok balances ∧ OnePerAsset (some "42.5000000") balances := by
  obtain ⟨balances, got, once⟩ := @getBalances_once_iff none
    (Sample.horizonAccount "client" Sample.oneIssuer) _ _ _ _ Sample.connected (by decide) rfl
  exact ⟨balances, got, once.mpr (by decide)⟩

end Once
end Stellance.Backend
