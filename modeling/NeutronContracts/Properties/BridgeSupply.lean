/-
The tokens that come over the bridge.  The supply of a token is explained by
what the bridge and others have minted and what was burned since, and all the
bridge ever minted, in all tokens together, is what the executed proposals say.
-/
import NeutronContracts.Chain.Minting

namespace NeutronContracts

open Fallible Holdings Transition

/-! ### The right to create tokens -/

namespace LsdToken

/-- A message leaves the minters as they are, or it removes some of them, or it
adds the one that it names. -/
theorem execute_minters {token token' : Token} {chain : Chain}
    {sender : String} {msg : ExecuteMsg} {received : Option Cw20ReceiveMsg}
    (h : execute token chain sender msg = .ok (token', received)) :
    token'.info.mint = token.info.mint ∨
      ∃ mint mint', token.info.mint = some mint ∧
        token'.info.mint = some mint' ∧ ∀ minter ∈ mint'.minters,
          minter ∈ mint.minters ∨ msg = .addMinter minter := by
  cases msg with
  | transfer recipient amount =>
      rw [executeTransfer_info (quiet_eq_ok.mp h).1]
      exact .inl rfl
  | burn amount =>
      have hburn := (quiet_eq_ok.mp h).1
      simp only [executeBurn, reduceSupply, bind_eq_ok, pure_eq_ok] at hburn
      obtain ⟨_, hdebit, _, -, rfl⟩ := hburn
      exact .inl (by rw [debit_info hdebit])
  | send contract amount text =>
      obtain ⟨_, hsend, -⟩ := notifying_eq_ok.mp h
      rw [executeTransfer_info (executeSend_ok hsend)]
      exact .inl rfl
  | increaseAllowance spender amount expires =>
      have hincrease := (quiet_eq_ok.mp h).1
      simp only [executeIncreaseAllowance, bind_eq_ok,
        pure_eq_ok] at hincrease
      obtain ⟨_, -, _, -, _, -, _, -, rfl⟩ := hincrease
      exact .inl rfl
  | decreaseAllowance spender amount expires =>
      have hdecrease := (quiet_eq_ok.mp h).1
      simp only [executeDecreaseAllowance, bind_eq_ok] at hdecrease
      obtain ⟨_, -, _, -, _, -, hdecrease⟩ := hdecrease
      split at hdecrease
      · simp only [bind_eq_ok, pure_eq_ok] at hdecrease
        obtain ⟨_, -, rfl⟩ := hdecrease
        exact .inl rfl
      · cases hdecrease
        exact .inl rfl
  | transferFrom owner recipient amount =>
      rw [executeTransferFrom_info (quiet_eq_ok.mp h).1]
      exact .inl rfl
  | sendFrom owner contract amount text =>
      obtain ⟨_, hsend, -⟩ := notifying_eq_ok.mp h
      rw [executeTransferFrom_info (executeSendFrom_ok hsend)]
      exact .inl rfl
  | burnFrom owner amount =>
      have hburn := (quiet_eq_ok.mp h).1
      simp only [executeBurnFrom, reduceSupply, bind_eq_ok,
        pure_eq_ok] at hburn
      obtain ⟨_, -, _, hdeduct, _, hdebit, _, -, rfl⟩ := hburn
      exact .inl (by rw [debit_info hdebit, deductAllowance_info hdeduct])
  | mint recipient amount =>
      have hmint := (quiet_eq_ok.mp h).1
      simp only [executeMint, bind_eq_ok] at hmint
      obtain ⟨_, -, _, -, _, -, _, -, _, -, hcredit⟩ := hmint
      exact .inl (by rw [credit_info hcredit])
  | addMinter newMinter =>
      have hadd := (quiet_eq_ok.mp h).1
      simp only [executeAddMinter, adminMint, bind_eq_ok, orError_eq_ok,
        pure_eq_ok] at hadd
      obtain ⟨_, ⟨mint, hmint, _, -, rfl⟩, _, -, rfl⟩ := hadd
      refine .inr ⟨_, _, hmint, rfl, fun minter hminter => ?_⟩
      rcases List.mem_append.mp hminter with hold | hnew
      · exact .inl hold
      · exact .inr (by rw [List.mem_singleton.mp hnew])
  | removeMinter minter =>
      have hremove := (quiet_eq_ok.mp h).1
      simp only [executeRemoveMinter, adminMint, bind_eq_ok, orError_eq_ok,
        pure_eq_ok] at hremove
      obtain ⟨_, ⟨mint, hmint, _, -, rfl⟩, rfl⟩ := hremove
      exact .inr ⟨_, _, hmint, rfl, fun minter hminter =>
        .inl (List.mem_of_mem_filter hminter)⟩
  | transferAdmin newAdmin =>
      have htransfer := (quiet_eq_ok.mp h).1
      simp only [executeTransferAdmin, adminMint, bind_eq_ok, orError_eq_ok,
        pure_eq_ok] at htransfer
      obtain ⟨_, ⟨mint, hmint, _, -, rfl⟩, _, -, rfl⟩ := htransfer
      exact .inr ⟨_, _, hmint, rfl, fun _ hminter => .inl hminter⟩

theorem instantiate_minters {chain : Chain} {msg : InstantiateMsg}
    {token : Token} (h : instantiate chain msg = .ok token) :
    ∀ mint ∈ token.info.mint, ∃ data ∈ msg.mint,
      mint.minters = [data.minter] := by
  simp only [instantiate, bind_eq_ok, pure_eq_ok, Prod.exists] at h
  obtain ⟨_, -, _, -, _, _, -, _, -, mint, hmint, rfl⟩ := h
  intro data hdata
  cases hmsg : msg.mint with
  | none =>
      rw [hmsg] at hmint
      cases hmint
      cases hdata
  | some given =>
      simp only [hmsg, minterData, bind_eq_ok, pure_eq_ok,
        Chain.validate_eq_ok] at hmint
      obtain ⟨_, -, _, ⟨-, rfl⟩, rfl⟩ := hmint
      cases hdata
      exact ⟨given, rfl, rfl⟩

end LsdToken

namespace Bridge

namespace MintChain

/-- The supply of the token at an address. -/
def supplyOf (c : MintChain) (address : String) : Nat :=
  ((c.tokens address).map (·.info.totalSupply)).getD 0

/-- The ledger explains the supplies, and what the bridge has minted is what
its executed proposals say. -/
structure Accounted (net : Setting) (c : MintChain) (supply : Supply) :
    Prop where
  known : ∀ address, net.isToken address = false → c.tokens address = none
  explained : ∀ address, net.isToken address = true →
    c.supplyOf address + supply.burned address =
      supply.issued address + supply.bridged address + supply.granted address
  bridged : Bounded supply.bridged
  executed : Bounded c.bridge.executedAmounts
  total : total supply.bridged = total c.bridge.executedAmounts

section

variable {net : Setting} {start last c c' : MintChain} {ev : MintEvent}
  {events : List MintEvent} {supply : Supply} {address : String}

theorem supplyOf_congr (h : c'.tokens = c.tokens) :
    c'.supplyOf address = c.supplyOf address := by
  unfold supplyOf
  rw [h]

theorem supplyOf_save {token : LsdToken.Token} {other : String}
    (h : c'.tokens = c.tokens.save address token) :
    c'.supplyOf other = if other = address then token.info.totalSupply
      else c.supplyOf other := by
  unfold supplyOf
  rw [h, Map.save_apply]
  split <;> rfl

theorem supplyOf_of_some {token : LsdToken.Token}
    (h : c.tokens address = some token) :
    c.supplyOf address = token.info.totalSupply := by
  rw [supplyOf, h]
  rfl

theorem accounted_start (hgenesis : Genesis net c) :
    Accounted net c (.start c) := by
  obtain ⟨msg, hmsg⟩ := hgenesis.instantiated
  have hamounts : c.bridge.executedAmounts = empty := by
    rw [(instantiate_eq_ok.mp hmsg).2]
    rfl
  exact
    { known := hgenesis.tokens
      explained := fun _ _ => rfl
      bridged := bounded_empty
      executed := hamounts ▸ bounded_empty
      total := by simp [hamounts, Supply.start] }

theorem Accounted.minted {chain : LsdToken.Chain} {proposal : Proposal}
    {key : List UInt8} (hinv : Accounted net c supply)
    (hamounts : c'.bridge.executedAmounts =
      add c.bridge.executedAmounts key proposal.amount.toNat)
    (hminted : Minted net chain address proposal c c') :
    Accounted net c' { supply with
      bridged := add supply.bridged address proposal.amount.toNat } where
  known other hother := by
    cases htoken : net.isToken address with
    | false =>
        rw [hminted.foreign htoken]
        exact hinv.known other hother
    | true =>
        obtain ⟨token, token', -, -, htokens⟩ := hminted.token htoken
        have hne : other ≠ address := by
          rintro rfl
          cases hother.symm.trans htoken
        rw [htokens, Map.save_of_ne hne]
        exact hinv.known other hother
  explained other hother := by
    have hbefore := hinv.explained other hother
    simp only [add_at]
    cases htoken : net.isToken address with
    | false =>
        have hne : other ≠ address := by
          rintro rfl
          cases hother.symm.trans htoken
        rw [supplyOf_congr (hminted.foreign htoken), if_neg hne]
        exact hbefore
    | true =>
        obtain ⟨token, token', hbefore', hmint, htokens⟩ :=
          hminted.token htoken
        rw [supplyOf_save htokens]
        by_cases heq : other = address
        · subst heq
          rw [supplyOf_of_some hbefore'] at hbefore
          rw [if_pos rfl, if_pos rfl, (LsdToken.executeMint_supply hmint).2]
          omega
        · rw [if_neg heq, if_neg heq]
          exact hbefore
  bridged := hinv.bridged.update
  executed := hamounts ▸ hinv.executed.update
  total := by
    rw [hamounts, total_add hinv.bridged, total_add hinv.executed, hinv.total]

theorem Accounted.effect (hinv : Accounted net c supply)
    (heffect : Effect net c ev c') :
    Accounted net c' (supply.note net c ev.action c') := by
  cases heffect with
  | governed info msg foreign haction hamounts hnone htokens =>
      have hnote : supply.note net c ev.action c' = supply := by
        rw [haction]
        cases msg with
        | voteProposal content =>
            rw [Supply.note, hnone content rfl]
        | _ => rfl
      rw [hnote]
      exact
        { known := fun other hother => htokens ▸ hinv.known other hother
          explained := fun other hother => by
            rw [supplyOf_congr htokens]
            exact hinv.explained other hother
          bridged := hinv.bridged
          executed := hamounts ▸ hinv.executed
          total := hamounts ▸ hinv.total }
  | minted info content foreign address proposal haction hby hunexecuted
      hamounts hminted =>
      rw [haction, Supply.note, hby]
      exact hinv.minted hamounts hminted
  | created address msg token haction haddress hnew hcreated hbridge htokens =>
      rw [haction]
      have hzero : c.supplyOf address = 0 := by
        rw [supplyOf, hnew]
        rfl
      exact
        { known := fun other hother => by
            have hne : other ≠ address := by
              rintro rfl
              cases hother.symm.trans haddress
            rw [htokens, Map.save_of_ne hne]
            exact hinv.known other hother
          explained := fun other hother => by
            have hbefore := hinv.explained other hother
            simp only [Supply.note, add_at]
            rw [supplyOf_save htokens]
            by_cases heq : other = address
            · subst heq
              simp only [htokens, Map.save_self, Option.map_some,
                Option.getD_some, if_pos]
              omega
            · simp only [heq, if_false]
              exact hbefore
          bridged := hinv.bridged
          executed := hbridge ▸ hinv.executed
          total := hbridge ▸ hinv.total }
  | called address sender msg token token' received haction hsender htoken
      hcall hbridge htokens =>
      rw [haction]
      have hsupply := LsdToken.execute_supply hcall
      exact
        { known := fun other hother => by
            have hne : other ≠ address := by
              rintro rfl
              cases (hinv.known other hother).symm.trans htoken
            rw [htokens, Map.save_of_ne hne]
            exact hinv.known other hother
          explained := fun other hother => by
            have hbefore := hinv.explained other hother
            simp only [Supply.note, add_at]
            rw [supplyOf_save htokens]
            by_cases heq : other = address
            · subst heq
              rw [supplyOf_of_some htoken] at hbefore
              simp only [if_pos]
              omega
            · simp only [heq, if_false]
              exact hbefore
          bridged := hinv.bridged
          executed := hbridge ▸ hinv.executed
          total := hbridge ▸ hinv.total }

theorem step_cases (h : step net c ev = some c') :
    act net c ev = some c' ∨ act net c ev = none ∧ c' = c := by
  simp only [step, Option.some.injEq] at h
  cases hact : act net c ev with
  | none =>
      rw [hact] at h
      exact .inr ⟨rfl, h.symm⟩
  | some next =>
      rw [hact] at h
      exact .inl (congrArg some h)

theorem Accounted.step (hinv : Accounted net c supply)
    (h : step net c ev = some c') :
    Accounted net c' (supply.observe net c ev c') := by
  rw [Supply.observe]
  rcases step_cases h with hact | ⟨hact, rfl⟩
  · rw [hact]
    exact hinv.effect (act_effect hact)
  · rw [hact]
    exact hinv

theorem accounted_run (hgenesis : Genesis net start)
    (hrun : exec (track (step net) (Supply.observe net))
      (start, .start start) events = some (last, supply)) :
    Accounted net last supply :=
  exec_invariant (fun x : MintChain × Supply => Accounted net x.1 x.2)
    (fun _ _ _ hinv hstep => by
      obtain ⟨hnext, hsupply⟩ := track_eq_some.mp hstep
      exact hsupply ▸ hinv.step hnext)
    (accounted_start hgenesis) hrun

/-! ### Tokens that only the bridge mints -/

/-- Nobody but the bridge may mint the token. -/
def Sole (net : Setting) (address : String) (c : MintChain) : Prop :=
  ∀ token, c.tokens address = some token → ∀ mint ∈ token.info.mint,
    ∀ minter ∈ mint.minters, minter = net.self

/-- The action makes nobody else a minter of the token. -/
def Loyal (net : Setting) (address : String) : MintAction → Prop
  | .create other msg =>
      other = address → ∀ mint ∈ msg.mint, mint.minter = net.self
  | .token other _ (.addMinter newMinter) =>
      other = address → newMinter = net.self
  | _ => True

theorem Sole.congr (hsole : Sole net address c)
    (h : c'.tokens address = c.tokens address) : Sole net address c' :=
  fun token htoken => hsole token (h ▸ htoken)

theorem Sole.execute {chain : LsdToken.Chain} {sender other : String}
    {msg : LsdToken.ExecuteMsg} {token token' : LsdToken.Token}
    {received : Option LsdToken.Cw20ReceiveMsg} (hsole : Sole net address c)
    (htoken : c.tokens other = some token)
    (hcall : LsdToken.execute token chain sender msg = .ok (token', received))
    (hloyal : other = address →
      ∀ newMinter, msg = .addMinter newMinter → newMinter = net.self)
    (htokens : c'.tokens = c.tokens.save other token') :
    Sole net address c' := by
  by_cases heq : other = address
  · subst heq
    have hbefore := hsole token htoken
    intro last hlast mint' hmint' minter hminter
    rw [htokens, Map.save_self] at hlast
    cases hlast
    rcases LsdToken.execute_minters hcall with hsame | ⟨mint, new, hmint,
      hnew, hminters⟩
    · exact hbefore mint' (hsame ▸ hmint') minter hminter
    · obtain rfl := Option.some.inj (hnew.symm.trans hmint')
      rcases hminters minter hminter with hold | hadd
      · exact hbefore mint hmint minter hold
      · exact hloyal rfl minter hadd
  · refine hsole.congr ?_
    rw [htokens, Map.save_of_ne (Ne.symm heq)]

theorem Sole.effect (hsole : Sole net address c)
    (hloyal : Loyal net address ev.action) (heffect : Effect net c ev c') :
    Sole net address c' ∧ (supply.note net c ev.action c').granted address =
      supply.granted address := by
  cases heffect with
  | governed info msg foreign haction hamounts hnone htokens =>
      refine ⟨hsole.congr (by rw [htokens]), ?_⟩
      rw [haction]
      cases msg with
      | voteProposal content => rw [Supply.note, hnone content rfl]
      | _ => rfl
  | minted info content foreign other proposal haction hby hunexecuted
      hamounts hminted =>
      refine ⟨?_, by rw [haction, Supply.note, hby]⟩
      cases htoken : net.isToken other with
      | false => exact hsole.congr (by rw [hminted.foreign htoken])
      | true =>
          obtain ⟨token, token', hbefore, hmint, htokens⟩ :=
            hminted.token htoken
          have hcall := LsdToken.quiet_eq_ok.mpr ⟨hmint, rfl⟩
          exact @Sole.execute net c c' address _ net.self other
            (.mint proposal.recipient proposal.amount.toNat) token token' none
            hsole hbefore hcall (fun _ _ hadd => nomatch hadd) htokens
  | created other msg token haction haddress hnew hcreated hbridge htokens =>
      rw [haction] at hloyal ⊢
      refine ⟨?_, rfl⟩
      by_cases heq : other = address
      · intro last hlast mint hmint minter hminter
        rw [htokens, heq, Map.save_self] at hlast
        cases hlast
        obtain ⟨data, hdata, hminters⟩ :=
          LsdToken.instantiate_minters hcreated mint hmint
        rw [hminters, List.mem_singleton] at hminter
        rw [hminter]
        exact hloyal heq data hdata
      · exact hsole.congr (by rw [htokens, Map.save_of_ne (Ne.symm heq)])
  | called other sender msg token token' received haction hsender htoken
      hcall hbridge htokens =>
      rw [haction] at hloyal ⊢
      refine ⟨hsole.execute htoken hcall ?_ htokens, ?_⟩
      · rintro heq newMinter rfl
        exact hloyal heq
      · simp only [Supply.note, add_at]
        by_cases heq : address = other
        · subst heq
          have hzero : msg.minted = 0 := by
            by_contra hminted
            obtain ⟨mint, hmint, hmember⟩ :=
              LsdToken.execute_minter hcall hminted
            exact hsender (hsole token htoken mint hmint sender hmember)
          rw [if_pos rfl, hzero, Nat.add_zero]
        · rw [if_neg heq, Nat.add_zero]

/-- A token that only the bridge may mint gets nothing from others. -/
theorem granted_run (hsole : Sole net address start)
    (hloyal : ∀ ev ∈ events, Loyal net address ev.action)
    (hrun : exec (track (step net) (Supply.observe net))
      (start, .start start) events = some (last, supply)) :
    supply.granted address = 0 := by
  have hinv := AllSteps.invariant_last
    (fun x : MintChain × Supply =>
      Sole net address x.1 ∧ x.2.granted address = 0)
    (fun x ev y hinv hstep hloyal => by
      obtain ⟨hnext, hsupply⟩ := track_eq_some.mp hstep
      rw [hsupply, Supply.observe]
      rcases step_cases hnext with hact | ⟨hact, heq⟩
      · rw [hact]
        have hkept := @Sole.effect net x.1 y.1 ev x.2 address hinv.1 hloyal
          (act_effect hact)
        exact ⟨hkept.1, hkept.2.trans hinv.2⟩
      · rw [hact, heq]
        exact hinv)
    ⟨hsole, rfl⟩ (AllSteps.of_mem hloyal) hrun
  exact hinv.2

/-- The supply of a token is what it began with and what the bridge and others
have minted, less what was burned; and others have minted nothing when nobody
else was made a minter. -/
theorem supply_explained (hgenesis : Genesis net start)
    (hrun : exec (track (step net) (Supply.observe net))
      (start, .start start) events = some (last, supply)) :
    (∀ address token, last.tokens address = some token →
      token.info.totalSupply + supply.burned address =
        supply.issued address + supply.bridged address +
          supply.granted address) ∧
    ∀ address, Sole net address start →
      (∀ ev ∈ events, Loyal net address ev.action) →
        supply.granted address = 0 := by
  have hinv := accounted_run hgenesis hrun
  refine ⟨fun address token htoken => ?_, fun address hsole hloyal =>
    granted_run hsole hloyal hrun⟩
  have htokens : net.isToken address = true := by
    by_contra hplain
    rw [hinv.known address (by simpa using hplain)] at htoken
    cases htoken
  rw [← supplyOf_of_some htoken]
  exact hinv.explained address htokens

/-- All that the bridge has minted is what the executed proposals say: tokens
that only the bridge may mint are covered by them and by what was issued. -/
theorem bridged_covered (hgenesis : Genesis net start)
    (hrun : exec (track (step net) (Supply.observe net))
      (start, .start start) events = some (last, supply)) :
    (Function.support last.bridge.executedAmounts).Finite ∧
      ∑ᶠ address, supply.bridged address =
        ∑ᶠ key, last.bridge.executedAmounts key ∧
      ∀ addresses : Finset String,
        (∀ address ∈ addresses, net.isToken address = true ∧
          Sole net address start ∧
            ∀ ev ∈ events, Loyal net address ev.action) →
        ∑ address ∈ addresses, last.supplyOf address ≤
          ∑ address ∈ addresses, supply.issued address +
            ∑ᶠ key, last.bridge.executedAmounts key := by
  have hinv := accounted_run hgenesis hrun
  have htotal : ∑ᶠ address, supply.bridged address =
      ∑ᶠ key, last.bridge.executedAmounts key := hinv.total
  refine ⟨hinv.executed, htotal, fun addresses hsole => ?_⟩
  have heach : ∀ address ∈ addresses, last.supplyOf address ≤
      supply.issued address + supply.bridged address := by
    intro address hmem
    obtain ⟨htoken, hstart, hloyal⟩ := hsole address hmem
    have hexplained := hinv.explained address htoken
    have hgranted := granted_run hstart hloyal hrun
    omega
  calc ∑ address ∈ addresses, last.supplyOf address
      ≤ ∑ address ∈ addresses,
          (supply.issued address + supply.bridged address) :=
        Finset.sum_le_sum heach
    _ = ∑ address ∈ addresses, supply.issued address +
          ∑ address ∈ addresses, supply.bridged address :=
        Finset.sum_add_distrib
    _ ≤ ∑ address ∈ addresses, supply.issued address +
          ∑ᶠ key, last.bridge.executedAmounts key := by
        rw [← htotal]
        exact Nat.add_le_add_left (sum_le_total hinv.bridged addresses) _

end

theorem sole_quietChain :
    Sole Sample.net "neutron1token" Sample.quietChain :=
  fun _ htoken => nomatch htoken

theorem loyal_deposits :
    ∀ ev ∈ Sample.deposits, Loyal Sample.net "neutron1token" ev.action := by
  simp [Sample.deposits, Sample.at5, Sample.act5, Loyal, Sample.net]

theorem supply_explained_sample :
    ∃ last supply token, exec (track (step Sample.net)
        (Supply.observe Sample.net)) (Sample.quietChain,
          .start Sample.quietChain) Sample.deposits = some (last, supply) ∧
      last.tokens "neutron1token" = some token ∧
      supply.bridged "neutron1token" = 500 ∧
      token.info.totalSupply + supply.burned "neutron1token" =
        supply.issued "neutron1token" + supply.bridged "neutron1token" +
          supply.granted "neutron1token" ∧
      supply.granted "neutron1token" = 0 := by
  have hrun : (exec (track (step Sample.net) (Supply.observe Sample.net))
      (Sample.quietChain, .start Sample.quietChain) Sample.deposits).map
        (fun last => ((last.1.tokens "neutron1token").isSome,
          last.2.bridged "neutron1token")) = some (true, 500) := by
    decide +kernel
  obtain ⟨⟨last, supply⟩, hrun, hlast⟩ := Option.map_eq_some_iff.mp hrun
  rw [Prod.mk.injEq] at hlast
  obtain ⟨token, htoken⟩ := Option.isSome_iff_exists.mp hlast.1
  have hexplained := supply_explained Sample.genesis_quietChain hrun
  exact ⟨last, supply, token, hrun, htoken, hlast.2,
    hexplained.1 _ token htoken,
    hexplained.2 _ sole_quietChain loyal_deposits⟩

theorem bridged_covered_sample :
    ∃ last supply, exec (track (step Sample.net)
        (Supply.observe Sample.net)) (Sample.quietChain,
          .start Sample.quietChain) Sample.deposits = some (last, supply) ∧
      last.supplyOf "neutron1token" = 420 ∧
      ∑ address ∈ {"neutron1token"}, last.supplyOf address ≤
        ∑ address ∈ {"neutron1token"}, supply.issued address +
          ∑ᶠ key, last.bridge.executedAmounts key := by
  have hrun : (exec (track (step Sample.net) (Supply.observe Sample.net))
      (Sample.quietChain, .start Sample.quietChain) Sample.deposits).map
        (fun last => last.1.supplyOf "neutron1token") = some 420 := by
    decide +kernel
  obtain ⟨⟨last, supply⟩, hrun, hlast⟩ := Option.map_eq_some_iff.mp hrun
  have hcovered := (bridged_covered Sample.genesis_quietChain hrun).2.2
  refine ⟨last, supply, hrun, hlast, hcovered _ fun address hmem => ?_⟩
  rw [Finset.mem_singleton.mp hmem]
  exact ⟨rfl, sole_quietChain, loyal_deposits⟩

end MintChain

end Bridge

end NeutronContracts
