/-
The listings of the allowances by owner and by spender, and the migration that
rebuilds the second index from the first.
-/
import NeutronContracts.LsdToken.Ledger
import NeutronContracts.Lib.Mirror

namespace NeutronContracts.LsdToken

open Fallible

/-! ### Queries -/

def maxLimit : Nat := 30

def defaultLimit : Nat := 10

structure AllowanceInfo where
  spender : String
  allowance : Nat
  expires : Expiration
deriving DecidableEq, Repr

structure SpenderAllowanceInfo where
  owner : String
  allowance : Nat
  expires : Expiration
deriving DecidableEq, Repr

/-- What both listings read: a page of the entries under one address.  `ranges`
is the walk of the storage under each address. -/
def pageUnder (index : Map (String × String) AllowanceResponse)
    (chain : Chain) (ranges : ∀ addr, (index.under addr).Range)
    (addr : String) (startAfter : Option String) (limit : Option Nat) :
    Result (List (String × AllowanceResponse)) := do
  let addr ← chain.validate addr
  let limit := min (limit.getD defaultLimit) maxLimit
  return (ranges addr).page startAfter limit

def queryOwnerAllowances (token : Token) (chain : Chain)
    (ranges : ∀ addr, (token.allowances.under addr).Range) (owner : String)
    (startAfter : Option String) (limit : Option Nat) :
    Result (List AllowanceInfo) := do
  let page ← pageUnder token.allowances chain ranges owner startAfter limit
  return page.map fun (addr, allow) => ⟨addr, allow.allowance, allow.expires⟩

def querySpenderAllowances (token : Token) (chain : Chain)
    (ranges : ∀ addr, (token.allowancesSpender.under addr).Range)
    (spender : String) (startAfter : Option String) (limit : Option Nat) :
    Result (List SpenderAllowanceInfo) := do
  let page ←
    pageUnder token.allowancesSpender chain ranges spender startAfter limit
  return page.map fun (addr, allow) => ⟨addr, allow.allowance, allow.expires⟩

/-- The accounts with an entry, some of them with nothing left. -/
def queryAllAccounts (token : Token) (range : token.balances.Range)
    (startAfter : Option String) (limit : Option Nat) : List String :=
  (range.page startAfter (min (limit.getD defaultLimit) maxLimit)).map
    Prod.fst

/-! ### Migration -/

/-- `older` is the outcome of `ensure_from_older_version`: whether the version
in the storage is below 0.14.0.  `data` is the walk of the storage over all
allowances. -/
def migrate (token : Token) (older : Result Bool)
    (data : token.allowances.Entries) : Result Token := do
  if ← older then
    return { token with
      allowancesSpender :=
        token.allowancesSpender.saveAll (data.list.map fun entry =>
          ((entry.1.2, entry.1.1), entry.2)) }
  else return token

section

variable {token : Token} {chain : Chain} {owner spender : String}
  {grant : AllowanceResponse}

/-- Some page under an address has exactly the entries stored there. -/
theorem exists_pageUnder {index : Map (String × String) AllowanceResponse}
    (ranges : ∀ addr, (index.under addr).Range) {addr other : String}
    (hvalid : chain.addrValidate addr = true) :
    (∃ startAfter limit page,
      pageUnder index chain ranges addr startAfter limit = .ok page ∧
      (other, grant) ∈ page) ↔ index (addr, other) = some grant := by
  simp only [pageUnder, bind_eq_ok, Chain.validate_eq_ok, pure_eq_ok]
  constructor
  · rintro ⟨startAfter, limit, _, ⟨_, ⟨-, rfl⟩, rfl⟩, hentry⟩
    have hstored := Map.Range.mem_of_page hentry
    exact hstored
  · intro hgrant
    obtain ⟨startAfter, hpage⟩ := (ranges addr).exists_page hgrant
    exact ⟨startAfter, some 1, _, ⟨addr, ⟨hvalid, rfl⟩, rfl⟩, hpage⟩

/-- Some page of an owner reports the grant. -/
def OwnerReports (token : Token) (chain : Chain)
    (ranges : ∀ addr, (token.allowances.under addr).Range)
    (owner spender : String) (grant : AllowanceResponse) : Prop :=
  ∃ startAfter limit page,
    queryOwnerAllowances token chain ranges owner startAfter limit =
      .ok page ∧
    ⟨spender, grant.allowance, grant.expires⟩ ∈ page

/-- Some page of a spender reports the grant. -/
def SpenderReports (token : Token) (chain : Chain)
    (ranges : ∀ addr, (token.allowancesSpender.under addr).Range)
    (owner spender : String) (grant : AllowanceResponse) : Prop :=
  ∃ startAfter limit page,
    querySpenderAllowances token chain ranges spender startAfter limit =
      .ok page ∧
    ⟨owner, grant.allowance, grant.expires⟩ ∈ page

theorem ownerReports_iff
    {ranges : ∀ addr, (token.allowances.under addr).Range}
    (hvalid : chain.addrValidate owner = true) :
    OwnerReports token chain ranges owner spender grant ↔
      token.allowances (owner, spender) = some grant := by
  rw [← exists_pageUnder ranges hvalid]
  simp only [OwnerReports, queryOwnerAllowances, bind_eq_ok, pure_eq_ok]
  constructor
  · rintro ⟨startAfter, limit, _, ⟨page, hpage, rfl⟩, hmem⟩
    obtain ⟨⟨_, _, _⟩, hentry, heq⟩ := List.mem_map.mp hmem
    cases heq
    exact ⟨startAfter, limit, page, hpage, hentry⟩
  · rintro ⟨startAfter, limit, page, hpage, hentry⟩
    exact ⟨startAfter, limit, _, ⟨page, hpage, rfl⟩,
      List.mem_map.mpr ⟨_, hentry, rfl⟩⟩

theorem spenderReports_iff
    {ranges : ∀ addr, (token.allowancesSpender.under addr).Range}
    (hvalid : chain.addrValidate spender = true) :
    SpenderReports token chain ranges owner spender grant ↔
      token.allowancesSpender (spender, owner) = some grant := by
  rw [← exists_pageUnder ranges hvalid]
  simp only [SpenderReports, querySpenderAllowances, bind_eq_ok, pure_eq_ok]
  constructor
  · rintro ⟨startAfter, limit, _, ⟨page, hpage, rfl⟩, hmem⟩
    obtain ⟨⟨_, _, _⟩, hentry, heq⟩ := List.mem_map.mp hmem
    cases heq
    exact ⟨startAfter, limit, page, hpage, hentry⟩
  · rintro ⟨startAfter, limit, page, hpage, hentry⟩
    exact ⟨startAfter, limit, _, ⟨page, hpage, rfl⟩,
      List.mem_map.mpr ⟨_, hentry, rfl⟩⟩

end

end NeutronContracts.LsdToken
