/-
The ids of the registered queries.  As long as every registration has had a
reply id of its own, each account finds the query that was registered for it;
the reply ids are handed out in a ring and are kept, so that later pools
take over the queries of the first ones.
-/
import NeutronContracts.Chain.Opening

namespace NeutronContracts

open StakeManager Fallible

namespace World

/-- The queries that were registered, with their ids. -/
def logQueries (log : List (QueryKey × Nat)) (w : World) (ev : Event)
    (_ : World) : List (QueryKey × Nat) :=
  log ++ registered w ev

/-- Every account finds the query that was registered for it last, and no two
find the same one. -/
structure QueriesApart (s : World × List (QueryKey × Nat)) : Prop where
  found : ∀ addr kind queryId,
    Directory.lastOf s.2 (addr, kind) = some queryId →
      getQueryId s.1.store addr kind = .ok queryId
  apart : ∀ addr kind addr' kind' queryId,
    getQueryId s.1.store addr kind = .ok queryId →
    getQueryId s.1.store addr' kind' = .ok queryId →
      (addr, kind) = (addr', kind')

/-- The queries after the event have a reply id each. -/
def HasReplyIds (s : World × List (QueryKey × Nat)) (ev : Event) : Prop :=
  (s.2 ++ registered s.1 ev).length ≤ queryReplyIdRangeSize + 1

instance (s : World × List (QueryKey × Nat)) (ev : Event) :
    Decidable (HasReplyIds s ev) :=
  inferInstanceAs (Decidable (_ ≤ _))

variable {net : Network} {w w' : World} {ev : Event}
  {s s' : World × List (QueryKey × Nat)}

/-- The directory of the storage is made of the registrations, whose ids are
counted from one. -/
structure Filed (net : Network) (s : World × List (QueryKey × Nat)) :
    Prop where
  sound : Sound net s.1
  directory : s.1.store.directory = s.2.foldl enterQuery Directory.empty
  next : s.1.nextQueryId = s.2.length + 1
  ids : s.2.map Prod.snd = List.range' 1 s.2.length

theorem registered_ids :
    (registered w ev).map Prod.snd =
      List.range' w.nextQueryId (registered w ev).length := by
  unfold registered
  split
  · split
    · simp
    · rfl
  · rfl

theorem filed_step (h : Filed net s)
    (hstep : Transition.track (step net) logQueries s ev = some s') :
    Filed net s' := by
  obtain ⟨w, log⟩ := s
  obtain ⟨w', log'⟩ := s'
  obtain ⟨hworld, rfl⟩ := Transition.track_eq_some.mp hstep
  obtain ⟨hdirectory, hnext⟩ := queries_step h.sound hworld
  have hbefore : w.nextQueryId = log.length + 1 := h.next
  refine ⟨sound_step h.sound hworld, ?_, ?_, ?_⟩
  · rw [logQueries, List.foldl_append, ← h.directory]
    exact hdirectory
  · have hafter : w'.nextQueryId = w.nextQueryId + (registered w ev).length :=
      hnext
    change w'.nextQueryId = (log ++ registered w ev).length + 1
    rw [hafter, hbefore, List.length_append]
    omega
  · have hids : log.map Prod.snd = List.range' 1 log.length := h.ids
    rw [logQueries, List.map_append, List.length_append, hids, registered_ids,
      hbefore, Nat.add_comm log.length 1, List.range'_append_1]

/-- Registrations with a reply id each are found. -/
theorem apart_of_filed (h : Filed net s)
    (hroom : s.2.length ≤ queryReplyIdRangeSize + 1) : QueriesApart s := by
  have hfind : ∀ key, s.1.store.directory.find key =
      Directory.lastOf s.2 key := by
    intro key
    rw [h.directory]
    exact Directory.find_file (by decide) hroom key
  refine ⟨fun addr kind queryId hlast => ?_,
    fun addr kind addr' kind' queryId hfound hfound' => ?_⟩
  · exact getQueryId_eq_ok.mpr ((hfind (addr, kind)).trans hlast)
  · have hmem := Directory.mem_of_lastOf
      ((hfind (addr, kind)).symm.trans (getQueryId_eq_ok.mp hfound))
    have hmem' := Directory.mem_of_lastOf
      ((hfind (addr', kind')).symm.trans (getQueryId_eq_ok.mp hfound'))
    have hnodup : (s.2.map Prod.snd).Nodup := by
      rw [h.ids]
      exact List.nodup_range'
    exact congrArg Prod.fst
      (List.inj_on_of_nodup_map hnodup hmem hmem' rfl)

theorem filed_genesis (net : Network) (block : BlockInfo)
    (deployer : MessageInfo) (lsdTokenCodeId : Nat) :
    Filed net (genesis block deployer lsdTokenCodeId, []) :=
  ⟨sound_genesis net block deployer lsdTokenCodeId, rfl, rfl, rfl⟩

/-- In every run whose registrations have a reply id each, the queries are kept
apart. -/
theorem queries_apart {block : BlockInfo} {deployer : MessageInfo}
    {lsdTokenCodeId : Nat} {evs : List Event}
    (hroom : Transition.AllSteps (Transition.track (step net) logQueries)
      (fun s ev _ => HasReplyIds s ev)
      (genesis block deployer lsdTokenCodeId, []) evs) :
    Transition.AllSteps (Transition.track (step net) logQueries)
      (fun _ _ s' => QueriesApart s')
      (genesis block deployer lsdTokenCodeId, []) evs := by
  refine Transition.AllSteps.of_invariant (Filed net) ?_
    (filed_genesis net block deployer lsdTokenCodeId) hroom
  intro s ev s' hinv hstep hroom
  have hnext := filed_step hinv hstep
  obtain ⟨-, hlog⟩ := Transition.track_eq_some.mp hstep
  exact ⟨hnext, apart_of_filed hnext (by rw [hlog]; exact hroom)⟩

theorem queries_apart_sample :
    (Transition.exec (Transition.track (step Sample.net) logQueries)
      (Sample.genesis, []) Sample.setup).isSome = true ∧
    Transition.AllSteps (Transition.track (step Sample.net) logQueries)
      (fun _ _ s' => QueriesApart s') (Sample.genesis, []) Sample.setup :=
  ⟨by decide +kernel, queries_apart (by decide +kernel)⟩

end World

/-! ### More pools than reply ids -/

namespace Sample

open World

variable {net : Network} {w w' : World} {icaId : String} {id : PacketId}

/-- A pool whose id is vacant is opened, and its four queries are
registered. -/
theorem exec_openPool {salt : String} {log : List (QueryKey × Nat)}
    (h : Vacant net w icaId salt id) :
    ∃ w', Transition.exec (Transition.track (step net) logQueries) (w, log)
        (openPool icaId id) =
          some (w', log ++ (poolQueries (net.hostAddr icaId)
            (net.hostAddr (getWithdrawIcaId icaId))).zipIdx w.nextQueryId) ∧
      OpenedPool net w icaId salt id w' := by
  obtain ⟨stack, hstack, hadmin⟩ := h.stack
  obtain ⟨pool, withdraw, infos, hhandshake, haddr, hwithdraw, hinfo,
    hinfos⟩ := exec_handshake h
  obtain ⟨w', hstep, hregistered, hopened⟩ := @step_initPool net { w with
    store := { w.store with
      infoOfIcaId := infos
      pools := w.store.pools.save (net.hostAddr icaId)
        (registeredPool icaId admin) } } icaId id stack pool withdraw salt
    ⟨h.ranged.packet, h.ranged.query⟩ h.block hstack hadmin hinfo haddr
    hwithdraw Map.save_self h.salted h.token h.unused
  refine ⟨w', ?_, hopened.block, hopened.stack, hopened.ranged,
    fun other hother => ?_, fun a ha => ?_, hopened.tokens, hopened.used⟩
  · have hsilent : ∀ ev ∈ (openPool icaId id).take 3, ∀ u v,
        logQueries log u ev v = log := by
      simp only [openPool, List.take_succ_cons, List.take_zero,
        List.forall_mem_cons]
      exact ⟨fun _ _ => List.append_nil log, fun _ _ => List.append_nil log,
        fun _ _ => List.append_nil log, by simp⟩
    refine Transition.exec_append_eq_some.mpr
      ⟨_, Transition.exec_track_of_silent hsilent hhandshake, ?_⟩
    refine Transition.exec_cons_eq_some.mpr ⟨_, Transition.track_eq_some.mpr
      ⟨hstep, rfl⟩, ?_⟩
    exact congrArg (fun entries => some (w', log ++ entries)) hregistered
  · exact (hopened.infos other hother).trans (hinfos other hother)
  · exact (hopened.pools a ha).trans (Map.save_of_ne ha)

def padding : List Char := List.replicate 40 'q'

theorem manager_plain : '.' ∉ "neutron1manager".toList := by
  decide

/-- A network in which every interchain account has an address of its own. -/
def wideNet : Network where
  self := "neutron1manager"
  hostAddr icaId := String.ofList ("cosmos1".toList ++ icaId.toList ++ padding)
  self_plain := manager_plain

/-- The id of pool number `n`. -/
def poolId (n : Nat) : String := toString n

theorem poolId_valid {n : Nat} (h : n < 10 ^ 10) :
    validInterchainAccountId (poolId n) = true := by
  have hlength := Text.length_toString_le (by decide) h
  have hsize : (toString n).utf8ByteSize ≤ interchainAccountIdLenLimit := by
    rw [Text.utf8ByteSize_eq_length fun c hc =>
      Text.utf8Size_of_isDigit (Text.isDigit_of_mem_toString hc)]
    exact hlength
  have hspace : ¬ (toString n).toList.all Text.isWhitespace = true := by
    rw [Text.toList_toString, List.all_eq_true]
    intro hall
    obtain ⟨c, hc⟩ := List.exists_mem_of_ne_nil _
      (Nat.toDigits_ne_nil (n := n) (b := 10))
    have hdigit := Nat.isDigit_of_mem_toDigits (by decide) (by decide) hc
    exact absurd (hall c hc) (Text.not_isWhitespace_of_isDigit hdigit)
  have hdash : '-' ∉ (toString n).toList :=
    Text.sep_not_mem_toString (by decide) n
  have hsufix : Text.containsText (toString n) icaWithdrawSufix = false :=
    Text.containsText_of_not_mem (by decide) hdash
  exact decide_eq_true ⟨hspace, Text.sep_not_mem_toString (by decide) n, hdash,
    by rw [poolId, hsufix]; simp, hsize⟩

theorem toList_hostAddr (icaId : String) : (wideNet.hostAddr icaId).toList =
    "cosmos1".toList ++ icaId.toList ++ padding := String.toList_ofList

theorem hostAddr_inj {a b : String}
    (h : wideNet.hostAddr a = wideNet.hostAddr b) : a = b := by
  rw [← String.toList_inj, toList_hostAddr, toList_hostAddr] at h
  exact String.toList_inj.mp
    (List.append_cancel_left (List.append_cancel_right h))

theorem hostAddr_ne_empty (icaId : String) : wideNet.hostAddr icaId ≠ "" := by
  intro h
  rw [← String.toList_inj, toList_hostAddr] at h
  cases h

/-- The salt of the token of pool number `n`. -/
def salt (n : Nat) : String :=
  String.ofList ((wideNet.hostAddr (poolId n)).toList.take 40)

theorem takeBytes_salt (n : Nat) :
    Text.takeBytes 40 (wideNet.hostAddr (poolId n)).toList =
      some (salt n).toList := by
  rw [salt, String.toList_ofList]
  refine Text.takeBytes_eq_take ?_ ?_
  · intro c hc
    simp only [toList_hostAddr, List.mem_append] at hc
    rcases hc with (hc | hc) | hc
    · have hchars : "cosmos1".toList =
          ['c', 'o', 's', 'm', 'o', 's', '1'] := rfl
      simp only [hchars, List.mem_cons, List.not_mem_nil, or_false] at hc
      rcases hc with rfl | rfl | rfl | rfl | rfl | rfl | rfl <;> rfl
    · exact Text.utf8Size_of_isDigit (Text.isDigit_of_mem_toString hc)
    · rw [List.eq_of_mem_replicate hc]
      rfl
  · rw [toList_hostAddr, List.length_append, padding, List.length_replicate]
    omega

/-- The number can be read off the salt. -/
theorem salt_inj {m n : Nat} (hm : m < 10 ^ 10) (hn : n < 10 ^ 10)
    (h : salt m = salt n) : m = n := by
  have hread : ∀ k, k < 10 ^ 10 →
      ((salt k).toList.drop 7).takeWhile Char.isDigit =
        (toString k).toList := by
    intro k hk
    have hlength := Text.length_toString_le (by decide) hk
    have hdigits : ∀ c ∈ (toString k).toList, c.isDigit = true :=
      fun c hc => Text.isDigit_of_mem_toString hc
    have hdrop : (wideNet.hostAddr (poolId k)).toList.drop 7 =
        (toString k).toList ++ padding := by
      rw [toList_hostAddr, List.append_assoc]
      rfl
    rw [salt, String.toList_ofList, List.drop_take, hdrop, List.take_append,
      List.take_of_length_le (by omega),
      List.takeWhile_append_of_pos hdigits, padding, List.take_replicate,
      List.takeWhile_replicate]
    simp
  have hm' := hread m hm
  rw [h, hread n hn] at hm'
  exact Text.toString_inj (String.toList_inj.mp hm').symm

variable {s : World × List (QueryKey × Nat)} {n : Nat}

/-- The queries of pool number `n`. -/
def queriesOf (n : Nat) : List QueryKey :=
  poolQueries (wideNet.hostAddr (poolId n))
    (wideNet.hostAddr (getWithdrawIcaId (poolId n)))

def openPools : Nat → List Event
  | 0 => []
  | n + 1 => openPools n ++ openPool (poolId n) (packetId n)

theorem poolId_ne_withdraw (m n : Nat) :
    poolId m ≠ getWithdrawIcaId (poolId n) := by
  intro h
  have hdash : '-' ∉ (poolId m).toList :=
    Text.sep_not_mem_toString (by decide) m
  rw [h, getWithdrawIcaId, String.toList_append, List.mem_append] at hdash
  exact hdash (.inr (by decide))

theorem queriesOf_nodup (n : Nat) : (queriesOf n).Nodup := by
  have hne : wideNet.hostAddr (poolId n) ≠
      wideNet.hostAddr (getWithdrawIcaId (poolId n)) :=
    fun h => poolId_ne_withdraw n n (hostAddr_inj h)
  simp [queriesOf, poolQueries, hne]

/-- No query of a pool is one of another pool. -/
theorem queriesOf_disjoint {m n : Nat} {key : QueryKey}
    (hm : key ∈ queriesOf m) (hn : key ∈ queriesOf n) : m = n := by
  have haddr : ∀ k, key ∈ queriesOf k →
      key.1 = wideNet.hostAddr (poolId k) ∨
      key.1 = wideNet.hostAddr (getWithdrawIcaId (poolId k)) := by
    intro k hk
    simp only [queriesOf, poolQueries, List.mem_cons, List.not_mem_nil,
      or_false] at hk
    rcases hk with rfl | rfl | rfl | rfl
    · exact .inl rfl
    · exact .inr rfl
    · exact .inl rfl
    · exact .inl rfl
  rcases haddr m hm with hm | hm <;> rcases haddr n hn with hn | hn
  · exact Text.toString_inj (hostAddr_inj (hm.symm.trans hn))
  · exact absurd (hostAddr_inj (hm.symm.trans hn)) (poolId_ne_withdraw m n)
  · exact absurd (hostAddr_inj (hn.symm.trans hm)) (poolId_ne_withdraw n m)
  · have hids := hostAddr_inj (hm.symm.trans hn)
    exact Text.toString_inj (String.append_left_inj _ |>.mp hids)

/-- The first `n` pools have been opened, and the next ones can be. -/
structure Opened (n : Nat) (s : World × List (QueryKey × Nat)) : Prop where
  filed : Filed wideNet s
  vacant : ∀ m, n ≤ m → m < 10 ^ 10 →
    Vacant wideNet s.1 (poolId m) (salt m) (packetId m)
  keys : s.2.map Prod.fst = (List.range n).flatMap queriesOf

theorem opened_zero : Opened 0 (genesis, []) where
  filed := filed_genesis _ _ _ _
  vacant m _ hm :=
    { block := rfl
      stack := ⟨_, rfl, rfl⟩
      ranged := ⟨by decide, by decide⟩
      valid := poolId_valid hm
      info := rfl
      pool := rfl
      host := hostAddr_ne_empty _
      withdraw := hostAddr_ne_empty _
      salted := takeBytes_salt m
      token := rfl
      unused := List.not_mem_nil }
  keys := rfl

/-- The ids of the other pools stay vacant. -/
theorem vacant_of_opened {w w' : World} {m : Nat} (hm : m < 10 ^ 10)
    (hn : n < 10 ^ 10) (hne : m ≠ n)
    (h : Vacant wideNet w (poolId m) (salt m) (packetId m))
    (hopened : OpenedPool wideNet w (poolId n) (salt n) (packetId n) w') :
    Vacant wideNet w' (poolId m) (salt m) (packetId m) := by
  have hid : poolId m ≠ poolId n := fun hid => hne (Text.toString_inj hid)
  have haddr : wideNet.hostAddr (poolId m) ≠ wideNet.hostAddr (poolId n) :=
    fun haddr => hid (hostAddr_inj haddr)
  have hsalt : salt m ≠ salt n := fun hsalt => hne (salt_inj hm hn hsalt)
  have hpacket : packetId m ≠ packetId n :=
    fun hpacket => hne (Prod.mk.inj hpacket).2
  obtain ⟨stack, hstack, hadmin⟩ := h.stack
  exact
    { block := hopened.block.trans h.block
      stack := ⟨stack, hopened.stack.trans hstack, hadmin⟩
      ranged := hopened.ranged
      valid := h.valid
      info := (hopened.infos _ hid).trans h.info
      pool := (hopened.pools _ haddr).trans h.pool
      host := h.host
      withdraw := h.withdraw
      salted := h.salted
      token := (hopened.tokens _ hsalt).trans h.token
      unused := by
        rw [hopened.used, List.mem_cons, not_or]
        exact ⟨hpacket, h.unused⟩ }

theorem opened_succ (h : Opened n s) (hn : n < 10 ^ 10) :
    ∃ s', Transition.exec (Transition.track (step wideNet) logQueries) s
      (openPool (poolId n) (packetId n)) = some s' ∧ Opened (n + 1) s' := by
  obtain ⟨w, log⟩ := s
  obtain ⟨w', hrun, hopened⟩ := exec_openPool (h.vacant n (Nat.le_refl n) hn)
  refine ⟨_, hrun, ?_, fun m hm hlt => ?_, ?_⟩
  · exact Transition.exec_invariant (Filed wideNet)
      (fun _ _ _ => filed_step) h.filed hrun
  · exact vacant_of_opened hlt hn (by omega) (h.vacant m (by omega) hlt)
      hopened
  · have hkeys : log.map Prod.fst = (List.range n).flatMap queriesOf := h.keys
    rw [List.map_append, hkeys, List.range_succ, List.flatMap_append,
      List.zipIdx_map_fst]
    simp [queriesOf]

theorem exec_openPools (hn : n ≤ 10 ^ 10) :
    ∃ s, Transition.exec (Transition.track (step wideNet) logQueries)
      (genesis, []) (openPools n) = some s ∧ Opened n s := by
  induction n with
  | zero => exact ⟨_, rfl, opened_zero⟩
  | succ n ih =>
      obtain ⟨s, hrun, hopened⟩ := ih (by omega)
      obtain ⟨s', hnext, hopened'⟩ := opened_succ hopened (by omega)
      exact ⟨s', Transition.exec_append_eq_some.mpr ⟨s, hrun, hnext⟩, hopened'⟩

theorem keys_nodup (h : Opened n s) : (s.2.map Prod.fst).Nodup := by
  rw [h.keys, List.nodup_flatMap]
  refine ⟨fun m _ => queriesOf_nodup m, ?_⟩
  refine List.nodup_range.imp fun hne => ?_
  exact fun key hm hk => hne (queriesOf_disjoint hm hk)

theorem length_keys (h : Opened n s) : s.2.length = n * 4 := by
  have hlength := congrArg List.length h.keys
  rw [List.length_map] at hlength
  rw [hlength, List.length_flatMap]
  simp [queriesOf, poolQueries]

/-- Queries that are kept apart have a reply id each. -/
theorem room_of_apart (h : Filed wideNet s) (hkeys : (s.2.map Prod.fst).Nodup)
    (hapart : QueriesApart s) :
    s.2.length ≤ queryReplyIdRangeSize + 1 := by
  have hle : queryReplyIdRangeStart ≤ queryReplyIdRangeEnd := by decide
  refine Directory.length_le_of_apart hle hkeys ?_
  rintro ⟨addr, kind⟩ ⟨addr', kind'⟩ queryId hfound hfound'
  refine hapart.apart addr kind addr' kind' queryId ?_ ?_
  · refine getQueryId_eq_ok.mpr ?_
    rw [h.directory]
    exact hfound
  · refine getQueryId_eq_ok.mpr ?_
    rw [h.directory]
    exact hfound'

/-- While the queries of the pools are kept apart they have a reply id
each. -/
theorem room_of_openPools (hn : n ≤ 10 ^ 10)
    (hall : Transition.AllSteps (Transition.track (step wideNet) logQueries)
      (fun _ _ s' => QueriesApart s') (genesis, []) (openPools n)) :
    n * 4 ≤ queryReplyIdRangeSize + 1 := by
  obtain ⟨s, hrun, hopened⟩ := exec_openPools hn
  have hapart : QueriesApart s :=
    Transition.AllSteps.invariant_last QueriesApart
      (fun _ _ _ _ _ hapart => hapart)
      (apart_of_filed opened_zero.filed (Nat.zero_le _)) hall hrun
  have hroom := room_of_apart hopened.filed (keys_nodup hopened) hapart
  rw [length_keys hopened] at hroom
  exact hroom

/-- The chain can open more pools than there are reply ids for, and then two
accounts have got the same query. -/
theorem openPools_meet (hn : n ≤ 10 ^ 10)
    (hround : queryReplyIdRangeSize + 1 < n * 4) :
    (∃ s, Transition.exec (Transition.track (step wideNet) logQueries)
      (genesis, []) (openPools n) = some s) ∧
    ¬ Transition.AllSteps (Transition.track (step wideNet) logQueries)
      (fun _ _ s' => QueriesApart s') (genesis, []) (openPools n) := by
  obtain ⟨s, hrun, -⟩ := exec_openPools hn
  refine ⟨⟨s, hrun⟩, fun hall => ?_⟩
  exact absurd (room_of_openPools hn hall) (Nat.not_le.mpr hround)

theorem queries_apart_fails :
    (∃ s, Transition.exec (Transition.track (step wideNet) logQueries)
      (genesis, []) (openPools 250001) = some s) ∧
    ¬ Transition.AllSteps (Transition.track (step wideNet) logQueries)
      (fun _ _ s' => QueriesApart s') (genesis, []) (openPools 250001) :=
  @openPools_meet 250001 (by omega) (by decide)

end Sample

end NeutronContracts
