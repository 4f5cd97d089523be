/-
**The acks for one request number.**

A `clientReqNo` is reached by new requests, acks, fetches, ticks, checkpoints and restarts
(`ReqNoCall`). It stores requests (`Stocked`: `myRequests` are the stored ones) and acks at most one
of them other than the null request.

* `resend_has_ack`: what there is to resend. Several requests are stored without the null request
  exactly when a second one arrives that is not null while the null request is not there;
  `applyNewRequest` then promotes nothing, and the next resend dereferences a null request that is
  missing.
* `acks_bounded_iff`: `client.ack` records whatever digest a node sends. With nodes that ack one
  digest only, unless another is known to be correct, there are no more digests than nodes.
-/

import MirBft.Proof.ClientKeys
import MirBft.Proof.ClientTicks

namespace MirBft

open List Function ClientReqNo

namespace ClientReqNo

variable {crn : ClientReqNo} {clientId reqNo : Nat} {first second third : ClientReqNo} {after : ClientReqNo}
  {digest : Bytes} {old : Σ _ : Bytes, ClientRequest} {nc : NetworkConfig}

/-! ### What is stored -/

/-- The request with the digest is persisted here. -/
def isStored (crn : ClientReqNo) (digest : Bytes) : Bool := (crn.requests.lookup digest).any (·.stored)

theorem isStored_setRequest (digest other : Bytes) (cr : ClientRequest) :
    (crn.setRequest digest cr).isStored other = if other = digest then cr.stored else crn.isStored other := by
  unfold isStored setRequest
  rcases eq_or_ne other digest with rfl | different
  · rw [AList.lookup_insert, if_pos rfl, Option.any_some]
  · rw [AList.lookup_insert_ne different, if_neg different]

theorem clientReq_stored (ack : RequestAck) : (crn.clientReq ack).stored = crn.isStored ack.digest := by
  unfold clientReq isStored
  cases crn.requests.lookup ack.digest <;> rfl

/-- **`myRequests` are the requests that are stored.** -/
structure Stocked (crn : ClientReqNo) : Prop where
  distinct : crn.myRequests.Nodup
  stored : ∀ digest, digest ∈ crn.myRequests ↔ crn.isStored digest = true

/-- What is stored stays the same, and the acks that were sent. -/
structure SameStock (before after : ClientReqNo) : Prop where
  mine : after.myRequests = before.myRequests
  stored : ∀ digest, after.isStored digest = before.isStored digest
  acksSent : after.acksSent = before.acksSent

theorem SameStock.refl (crn : ClientReqNo) : SameStock crn crn := ⟨rfl, fun _ => rfl, rfl⟩

theorem SameStock.trans (one : SameStock first second)
    (two : SameStock second third) : SameStock first third :=
  ⟨two.mine.trans one.mine, fun digest => (two.stored digest).trans (one.stored digest),
    two.acksSent.trans one.acksSent⟩

theorem Stocked.same (stocked : crn.Stocked) (same : SameStock crn after) : after.Stocked := by
  refine ⟨by rw [same.mine]; exact stocked.distinct, fun digest => ?_⟩
  rw [same.mine, same.stored]
  exact stocked.stored digest

theorem sameStock_setRequest {cr : ClientRequest}
    (same : cr.stored = crn.isStored digest) : SameStock crn (crn.setRequest digest cr) := by
  refine ⟨rfl, fun other => ?_, rfl⟩
  rw [isStored_setRequest]
  split
  · rename_i isThis
    rw [same, isThis]
  · rfl

theorem Stocked.store (stocked : crn.Stocked) (ack : RequestAck) : (crn.store ack).Stocked := by
  refine ⟨stocked.distinct.insert, fun digest => ?_⟩
  show digest ∈ crn.myRequests.insert ack.digest ↔
    (crn.setRequest ack.digest { crn.clientReq ack with stored := true }).isStored digest = true
  rw [mem_insert_iff, isStored_setRequest]
  split
  · rename_i isThis
    exact ⟨fun _ => rfl, fun _ => .inl isThis⟩
  · rename_i isOther
    rw [or_iff_right isOther]
    exact stocked.stored digest

theorem stocked_new (clientId reqNo : Nat) (nc : NetworkConfig) (validAfterSeqNo : Nat) :
    (newClientReqNo clientId reqNo nc validAfterSeqNo).Stocked :=
  ⟨nodup_nil, fun _ => ⟨nofun, nofun⟩⟩

/-! ### Acks and restarts -/

theorem sameStock_withAck (nc : NetworkConfig) (source : NodeID) (request : RequestAck) :
    SameStock crn (crn.withAck nc source request) := by
  have set : SameStock crn (crn.setRequest request.digest (crn.acked source request)) :=
    sameStock_setRequest (clientReq_stored request)
  exact ⟨rfl, set.stored, rfl⟩

theorem exists_voters (crn : ClientReqNo) (source : NodeID) (ack : RequestAck) : ∃ nonNullVoters,
    (if ack.digest ≠ [] then { crn with nonNullVoters := insert source crn.nonNullVoters } else crn) =
      { crn with nonNullVoters } := by
  split
  · exact ⟨_, rfl⟩
  · exact ⟨_, rfl⟩

theorem sameStock_applyRequestAck (source : NodeID) (ack : RequestAck) (force : Bool) :
    SameStock crn (crn.applyRequestAck source ack force) := by
  unfold applyRequestAck
  split
  · exact .refl crn
  obtain ⟨voters, isCounted⟩ := exists_voters crn source ack
  simp only [isCounted]
  have set : SameStock crn (crn.setRequest ack.digest { crn.clientReq ack with
      agreements := insert source (crn.clientReq ack).agreements }) :=
        sameStock_setRequest (clientReq_stored ack)
  split
  · exact ⟨rfl, set.stored, rfl⟩
  split <;> exact ⟨rfl, set.stored, rfl⟩

/-! ### What a restart restores -/

/-- What a restart leaves of a request: the acks of the network's nodes, and whether it is
stored. -/
def kept (nc : NetworkConfig) (old : ClientRequest) : Option ClientRequest :=
  if old.agreements.filter (· ∈ nc.nodes) = ∅ ∧ old.stored = false then none
  else some
    { ack := old.ack, agreements := old.agreements.filter (· ∈ nc.nodes), stored := old.stored,
      fetching := false, ticksFetching := 0, ticksCorrect := 0 }

/-- The request as some of the nodes' acks have restored it. -/
def restoredAcks (nodes : List NodeID) (old : ClientRequest) : Option ClientRequest :=
  if old.agreements.filter (· ∈ nodes) = ∅ then none
  else some
    { ack := old.ack, agreements := old.agreements.filter (· ∈ nodes), stored := false, fetching := false,
      ticksFetching := 0, ticksCorrect := 0 }

/-- What is known of the other requests stays, and this one has been restored from the nodes'
acks. -/
structure Restored (nodes : List NodeID) (old : ClientRequest) (before after : ClientReqNo) : Prop where
  stock : SameStock before after
  networkConfig : after.networkConfig = before.networkConfig
  this : after.requests.lookup old.ack.digest = restoredAcks nodes old
  others : ∀ digest ≠ old.ack.digest, after.requests.lookup digest = before.requests.lookup digest
  weak : ∀ digest, digest ∈ after.weakRequests ↔ digest ∈ before.weakRequests ∨
    digest = old.ack.digest ∧
      someCorrectQuorum before.networkConfig ≤ (old.agreements.filter (· ∈ nodes)).card

theorem filter_mem_concat (agreements : Finset NodeID) (nodes : List NodeID) (id : NodeID) :
    agreements.filter (· ∈ nodes ++ [id]) =
      if id ∈ agreements then insert id (agreements.filter (· ∈ nodes)) else agreements.filter
        (· ∈ nodes) := by
  ext node
  by_cases member : id ∈ agreements
  · rw [if_pos member]
    simp only [Finset.mem_filter, Finset.mem_insert, mem_append, mem_singleton]
    constructor
    · rintro ⟨isIn, earlier | rfl⟩
      · exact .inr ⟨isIn, earlier⟩
      · exact .inl rfl
    · rintro (rfl | ⟨isIn, earlier⟩)
      · exact ⟨member, .inr rfl⟩
      · exact ⟨isIn, .inl earlier⟩
  · rw [if_neg member]
    simp only [Finset.mem_filter, mem_append, mem_singleton]
    refine and_congr_right fun isIn => or_iff_left ?_
    rintro rfl
    exact member isIn

theorem applyRequestAck_force (source : NodeID) (ack : RequestAck) :
    let after := crn.applyRequestAck source ack true
    let votes := (insert source (crn.clientReq ack).agreements).card
    after.networkConfig = crn.networkConfig ∧
      after.requests = crn.requests.insert ack.digest (crn.acked source ack) ∧
      after.weakRequests = (if someCorrectQuorum crn.networkConfig ≤ votes then
        crn.weakRequests.insert ack.digest else crn.weakRequests) := by
  unfold applyRequestAck
  rw [if_neg (by simp)]
  obtain ⟨voters, isCounted⟩ := exists_voters crn source ack
  simp only [isCounted]
  split
  · rename_i missed
    exact ⟨rfl, rfl, (if_neg (Nat.not_le.mpr missed)).symm⟩
  · rename_i weak
    split <;> exact ⟨rfl, rfl, (if_pos (Nat.not_lt.mp weak)).symm⟩

theorem restoredAcks_agreements (nodes : List NodeID) (old : ClientRequest) (ack : RequestAck)
    (known : crn.requests.lookup ack.digest = restoredAcks nodes old) (isAck : old.ack = ack) :
    crn.clientReq ack = ⟨ack, old.agreements.filter (· ∈ nodes), false, false, 0, 0⟩ := by
  rw [clientReq, known, restoredAcks]
  split
  · rename_i none
    rw [none]
    rfl
  · rw [isAck]
    rfl

theorem restored_acks (old : ClientRequest) (isNew : crn.requests.lookup old.ack.digest = none)
    (nodes : List NodeID) : Restored nodes old crn (nodes.foldl (fun crn id =>
      if id ∈ old.agreements then crn.applyRequestAck id old.ack true else crn) crn) := by
  induction nodes using List.reverseRecOn with
  | nil =>
    have nobody : old.agreements.filter (· ∈ ([] : List NodeID)) = ∅ := by simp
    refine ⟨.refl crn, rfl, ?_, fun _ _ => rfl, fun digest => ?_⟩
    · rw [restoredAcks, if_pos nobody]
      exact isNew
    · rw [nobody, or_iff_left fun both => absurd both.2 (by simp [someCorrectQuorum])]
      rfl
  | append_singleton nodes id ih =>
    rw [foldl_append, foldl_cons, foldl_nil]
    generalize nodes.foldl (fun crn id => if id ∈ old.agreements then crn.applyRequestAck id old.ack true
      else crn) crn = mid at ih
    by_cases member : id ∈ old.agreements
    · rw [if_pos member]
      have votes : old.agreements.filter (· ∈ nodes ++ [id]) =
          insert id (old.agreements.filter (· ∈ nodes)) := by
        rw [filter_mem_concat, if_pos member]
      obtain ⟨config, requests, weak⟩ := @applyRequestAck_force mid id old.ack
      have request := restoredAcks_agreements nodes old old.ack ih.this rfl
      rw [request, ← votes, ih.networkConfig] at weak
      have grows : (old.agreements.filter (· ∈ nodes)).card ≤
          (old.agreements.filter (· ∈ nodes ++ [id])).card := by
        rw [votes]
        exact Finset.card_le_card (Finset.subset_insert _ _)
      refine ⟨ih.stock.trans (sameStock_applyRequestAck id old.ack true), config.trans ih.networkConfig, ?_,
        fun digest other => ?_, fun digest => ?_⟩
      · rw [requests, AList.lookup_insert, acked, request, restoredAcks, votes, if_neg (by simp)]
      · rw [requests, AList.lookup_insert_ne other, ih.others digest other]
      · rw [weak]
        split
        · rw [mem_insert_iff, ih.weak]
          tauto
        · rw [ih.weak]
          have missedBefore : ¬ someCorrectQuorum crn.networkConfig ≤
              (old.agreements.filter (· ∈ nodes)).card := by omega
          tauto
    · rw [if_neg member]
      have votes : old.agreements.filter (· ∈ nodes ++ [id]) = old.agreements.filter (· ∈ nodes) := by
        rw [filter_mem_concat, if_neg member]
      refine ⟨ih.stock, ih.networkConfig, ?_, ih.others, ?_⟩
      · rw [ih.this, restoredAcks, restoredAcks, votes]
      · rw [votes]
        exact ih.weak

/-- The votes that are left for a request after a restart. -/
def keptVotes (nc : NetworkConfig) (old : ClientRequest) : Nat :=
  (old.agreements.filter (· ∈ nc.nodes)).card

/-- The requests of a list of old ones are restored, and nothing else changes. -/
structure RestoredAll (nc : NetworkConfig) (entries : List (Σ _ : Bytes, ClientRequest))
    (before after : ClientReqNo) : Prop where
  stocked : before.Stocked → after.Stocked
  acksSent : after.acksSent = before.acksSent
  mine : ∀ digest, digest ∈ after.myRequests ↔ digest ∈ before.myRequests ∨
    ∃ entry ∈ entries, digest = entry.1 ∧ entry.2.stored = true
  config : after.networkConfig = before.networkConfig
  these : ∀ entry ∈ entries, after.requests.lookup entry.1 = kept nc entry.2
  others : ∀ digest, (∀ entry ∈ entries, digest ≠ entry.1) →
    after.requests.lookup digest = before.requests.lookup digest
  weak : ∀ digest, digest ∈ after.weakRequests ↔ digest ∈ before.weakRequests ∨
    ∃ entry ∈ entries, digest = entry.1 ∧ someCorrectQuorum nc ≤ keptVotes nc entry.2

theorem restored_request (isConfig : crn.networkConfig = nc)
    (isKeyed : old.2.ack.digest = old.1)
    (isNew : crn.requests.lookup old.1 = none) :
    RestoredAll nc [old] crn (restoreRequest nc crn old) := by
  have acks := restored_acks old.2 (isKeyed ▸ isNew) nc.nodes
  unfold restoreRequest
  generalize nc.nodes.foldl (fun crn id => if id ∈ old.2.agreements then
    crn.applyRequestAck id old.2.ack true else crn) crn = mid at acks
  have weak (digest : Bytes) : digest ∈ mid.weakRequests ↔ digest ∈ crn.weakRequests ∨
      ∃ entry ∈ [old], digest = entry.1 ∧
        someCorrectQuorum nc ≤ keptVotes nc entry.2 := by
    rw [acks.weak, isConfig, isKeyed]
    simp [keptVotes]
  by_cases isStored : old.2.stored = true
  · rw [if_pos isStored]
    refine ⟨fun stocked => ?_, acks.stock.acksSent, fun digest => ?_, acks.networkConfig,
      fun entry member => ?_,
      fun digest other => ?_, weak⟩
    · have stored := (stocked.same acks.stock).store old.2.ack
      rw [← isKeyed]
      exact ⟨stored.distinct, stored.stored⟩
    · rw [mem_insert_iff, acks.stock.mine]
      simp [isStored, or_comm]
    · obtain rfl := mem_singleton.mp member
      show (mid.requests.insert entry.2.ack.digest _).lookup entry.1 = _
      rw [restoredAcks_agreements _ _ _ acks.this rfl, isKeyed, AList.lookup_insert, kept,
        if_neg fun both => Bool.noConfusion (isStored.symm.trans both.2), isStored]
    · show (mid.requests.insert old.2.ack.digest _).lookup digest = _
      have different : digest ≠ old.2.ack.digest := isKeyed ▸ other old mem_cons_self
      rw [AList.lookup_insert_ne different, acks.others digest different]
  · rw [if_neg isStored]
    refine ⟨fun stocked => stocked.same acks.stock, acks.stock.acksSent, fun digest => ?_, acks.networkConfig,
      fun entry member => ?_, fun digest other => ?_, weak⟩
    · rw [acks.stock.mine]
      simp [isStored]
    · obtain rfl := mem_singleton.mp member
      have unstored : entry.2.stored = false := Bool.eq_false_of_not_eq_true isStored
      rw [← isKeyed, acks.this, kept, unstored]
      exact if_congr (and_iff_left rfl).symm rfl rfl
    · exact acks.others digest (isKeyed ▸ other old mem_cons_self)

theorem restored_all (entries : List (Σ _ : Bytes, ClientRequest))
    (keyed : ∀ entry ∈ entries, entry.2.ack.digest = entry.1) (distinct : (entries.map Sigma.fst).Nodup)
    (isConfig : crn.networkConfig = nc)
    (isNew : ∀ entry ∈ entries, crn.requests.lookup entry.1 = none) :
    RestoredAll nc entries crn (entries.foldl (restoreRequest nc) crn) := by
  induction entries generalizing crn with
  | nil =>
    exact ⟨id, rfl, fun digest => by simp, rfl, nofun, fun _ _ => rfl, fun digest => by simp⟩
  | cons old rest ih =>
    obtain ⟨isKeyed, othersKeyed⟩ := forall_mem_cons.mp keyed
    obtain ⟨thisNew, othersNew⟩ := forall_mem_cons.mp isNew
    rw [map_cons, nodup_cons] at distinct
    have apart : ∀ entry ∈ rest, entry.1 ≠ old.1 := fun entry member same =>
      distinct.1 (same ▸ mem_map_of_mem member)
    have first := restored_request isConfig isKeyed thisNew
    have later := ih othersKeyed distinct.2 (first.config.trans isConfig) fun entry member => by
      rw [first.others entry.1 fun _ isOld => mem_singleton.mp isOld ▸ apart entry member]
      exact othersNew entry member
    have both {old' : Prop} {p : (Σ _ : Bytes, ClientRequest) → Prop} :
        (old' ∨ ∃ entry ∈ [old], p entry) ∨ (∃ entry ∈ rest, p entry) ↔ old' ∨
        ∃ entry ∈ old :: rest, p entry := by
      simp [or_assoc]
    refine ⟨fun stocked => later.stocked (first.stocked stocked), later.acksSent.trans first.acksSent,
      fun digest => ?_, later.config.trans first.config, fun entry member => ?_, fun digest other => ?_,
      fun digest => ?_⟩
    · rw [foldl_cons, later.mine, first.mine, both]
    · rcases mem_cons.mp member with rfl | isRest
      · rw [foldl_cons, later.others entry.1 fun other isOther => (apart other isOther).symm]
        exact first.these entry mem_cons_self
      · exact later.these entry isRest
    · obtain ⟨notThis, notRest⟩ := forall_mem_cons.mp other
      rw [foldl_cons, later.others digest notRest]
      exact first.others digest fun _ isOld => mem_singleton.mp isOld ▸ notThis
    · rw [foldl_cons, later.weak, first.weak, both]

section Restart

variable (keyed : crn.Keyed clientId reqNo) (nc : NetworkConfig)

include keyed

theorem reinitialized_all : RestoredAll nc crn.requests.entries
    { crn with
      networkConfig := nc, nonNullVoters := ∅, requests := ∅, weakRequests := [], strongRequests := [],
      myRequests := [] } (ClientReqNo.reinitialize crn nc) :=
  restored_all crn.requests.entries
    (fun entry member => by rw [keyed.acks entry.1 entry.2 (AList.mem_lookup_iff.mpr member)])
    crn.requests.keys_nodup rfl fun _ _ => rfl

/-- **A restart keeps what is stored.** -/
theorem Stocked.reinitialized (stocked : crn.Stocked) : (ClientReqNo.reinitialize crn nc).Stocked ∧
    ∀ digest, digest ∈ (ClientReqNo.reinitialize crn nc).myRequests ↔ digest ∈ crn.myRequests := by
  have all := reinitialized_all keyed nc
  refine ⟨all.stocked ⟨nodup_nil, fun _ => ⟨nofun, nofun⟩⟩, fun digest => (all.mine digest).trans ?_⟩
  rw [or_iff_right not_mem_nil, stocked.stored, isStored, Option.any_eq_true]
  constructor
  · rintro ⟨entry, member, rfl, isStored⟩
    exact ⟨entry.2, AList.mem_lookup_iff.mpr member, isStored⟩
  · rintro ⟨cr, found, isStored⟩
    exact ⟨⟨digest, cr⟩, AList.mem_lookup_iff.mp found, rfl, isStored⟩

/-- **A restart keeps the votes of the network's nodes** and what is stored. -/
theorem reinitialized_lookup (digest : Bytes) :
    (ClientReqNo.reinitialize crn nc).requests.lookup digest =
      (crn.requests.lookup digest).bind (kept nc) := by
  have all := reinitialized_all keyed nc
  cases found : crn.requests.lookup digest with
  | some old => exact all.these ⟨digest, old⟩ (AList.mem_lookup_iff.mp found)
  | none =>
    refine all.others digest fun entry member same => ?_
    rw [same, AList.mem_lookup_iff.mpr member] at found
    cases found

theorem mem_reinitialized_weak (digest : Bytes) :
    digest ∈ (ClientReqNo.reinitialize crn nc).weakRequests ↔
      ∃ old, crn.requests.lookup digest = some old ∧
        someCorrectQuorum nc ≤ keptVotes nc old := by
  rw [(reinitialized_all keyed nc).weak, or_iff_right not_mem_nil]
  constructor
  · rintro ⟨entry, member, rfl, votes⟩
    exact ⟨entry.2, AList.mem_lookup_iff.mpr member, votes⟩
  · rintro ⟨old, found, votes⟩
    exact ⟨⟨digest, old⟩, AList.mem_lookup_iff.mp found, rfl, votes⟩

end Restart

/-! ### Ticks -/

theorem OnlyFetches.stock (only : OnlyFetches crn after) : SameStock crn after := by
  refine ⟨by rw [only.rest], fun digest => ?_, by rw [only.rest]⟩
  have settled (crn : ClientReqNo) : crn.isStored digest =
      ((crn.requests.lookup digest).map ClientRequest.settled).any (·.stored) := by
    rw [Option.any_map]
    rfl
  rw [settled, settled, only.requests]

theorem OnlyFetches.keyed (only : OnlyFetches crn after)
    (keyed : crn.Keyed clientId reqNo) : after.Keyed clientId reqNo := by
  refine ⟨by rw [only.rest]; exact keyed.client, by rw [only.rest]; exact keyed.number,
    fun digest cr found => ?_⟩
  have same := only.requests digest
  rw [found] at same
  obtain ⟨old, isOld, settled⟩ := Option.map_eq_some_iff.mp same.symm
  have isAck : old.settled.ack = cr.settled.ack := by rw [settled]
  exact isAck.symm.trans (keyed.acks digest old isOld)

theorem AskFor.requestAcks {actions : List Action} (ask : AskFor actions) : requestAcks actions = [] := by
  refine filterMap_eq_nil_iff.mpr fun action member => ?_
  obtain ⟨_, _, rfl⟩ := ask action member
  rfl

/-- The digest of the ack to resend, by what is stored. -/
def toResend (myRequests : List Bytes) : Option Bytes :=
  match myRequests with
  | [] => none
  | [digest] => some digest
  | several => if [] ∈ several then some [] else none

theorem exists_request (stocked : crn.Stocked) (keyed : crn.Keyed clientId reqNo)
    (mine : digest ∈ crn.myRequests) :
    ∃ cr, crn.requests.lookup digest = some cr ∧ cr.ack = ⟨clientId, reqNo, digest⟩ := by
  obtain ⟨cr, found, _⟩ := (Option.any_eq_true _ _).mp ((stocked.stored digest).mp mine)
  exact ⟨cr, found, keyed.acks digest cr found⟩

/-- **What is resent** is an ack of the only request, or of the null request among several. -/
theorem ackToResend_eq_ok (stocked : crn.Stocked) (keyed : crn.Keyed clientId reqNo) {ack : RequestAck} :
    crn.ackToResend = .ok ack ↔
      ∃ digest, toResend crn.myRequests = some digest ∧ ack = ⟨clientId, reqNo, digest⟩ := by
  unfold ackToResend toResend
  cases isMine : crn.myRequests with
  | nil => exact ⟨by rintro ⟨⟩, by rintro ⟨_, ⟨⟩, _⟩⟩
  | cons first rest =>
    cases rest with
    | nil =>
      have mine : first ∈ crn.myRequests := by rw [isMine]; exact mem_cons_self
      obtain ⟨cr, found, isAck⟩ := exists_request stocked keyed mine
      simp only [found, pure_eq_ok, isAck]
      exact ⟨fun same => ⟨first, rfl, same.symm⟩, by rintro ⟨_, ⟨⟩, same⟩; exact same.symm⟩
    | cons second others =>
      by_cases null : [] ∈ first :: second :: others
      · have mine : [] ∈ crn.myRequests := isMine ▸ null
        obtain ⟨cr, found, isAck⟩ := exists_request stocked keyed mine
        simp only [if_pos null, found, pure_eq_ok, isAck]
        exact ⟨fun same => ⟨[], rfl, same.symm⟩, by rintro ⟨_, ⟨⟩, same⟩; exact same.symm⟩
      · simp only [if_neg null]
        exact ⟨by rintro ⟨⟩, by rintro ⟨_, ⟨⟩, _⟩⟩

end ClientReqNo

/-! ### The life of a request number -/

/-- **A call that reaches a request number.** -/
inductive ReqNoCall where
  /-- `applyNewRequest`. -/
  | persist (digest : Bytes)
  /-- `client.ack`, with the client's configuration. -/
  | ack (nc : NetworkConfig) (source : NodeID) (digest : Bytes)
  /-- `fetch` of one of its requests. -/
  | fetch (digest : Bytes)
  /-- The request number is committed in a checkpoint (`client.allocate`). -/
  | commit
  /-- `reinitialize`. -/
  | restart (nc : NetworkConfig) (committed : Bool)
  | tick
deriving DecidableEq

namespace ClientReqNo

/-- The ack of this request number with a digest. -/
def ackOf (crn : ClientReqNo) (digest : Bytes) : RequestAck := ⟨crn.clientID, crn.reqNo, digest⟩

def call (crn : ClientReqNo) : ReqNoCall → Go (ClientReqNo × List Action)
  | .persist digest => pure (crn.applyNewRequest (crn.ackOf digest))
  | .ack nc source digest =>
    pure (crn.withAck nc source (crn.ackOf digest),
      if (crn.acked source (crn.ackOf digest)).agreements.card = someCorrectQuorum nc ∧
        !(crn.clientReq (crn.ackOf digest)).stored then [.correctRequest (crn.ackOf digest)] else [])
  | .fetch digest => match crn.requests.lookup digest with
    | none => pure (crn, [])
    | some cr => pure (crn.setRequest digest cr.fetch.1, cr.fetch.2)
  | .commit => pure ({ crn with committed := true }, [])
  | .restart nc committed =>
    pure (ClientReqNo.reinitialize { crn with committed } nc, [])
  | .tick => crn.tick

/-- A second request that is not null, while the null request is not there. -/
def Conflicts (crn : ClientReqNo) : ReqNoCall → Prop
  | .persist digest => digest ≠ [] ∧ digest ∉ crn.myRequests ∧ crn.myRequests ≠ [] ∧ [] ∉ crn.myRequests
  | _ => False

/-- Several requests have the null request among them. -/
def Resendable (crn : ClientReqNo) : Prop := 1 < crn.myRequests.length → [] ∈ crn.myRequests

instance (crn : ClientReqNo) (made : ReqNoCall) : Decidable (crn.Conflicts made) :=
  match made with
  | .persist digest => inferInstanceAs (Decidable (digest ≠ [] ∧ digest ∉ _ ∧ _ ≠ [] ∧ [] ∉ _))
  | .ack .. | .fetch _ | .commit | .restart .. | .tick => isFalse id

instance (crn : ClientReqNo) : Decidable crn.Resendable := inferInstanceAs (Decidable (_ → _))

/-- The calls in turn, while they meet the condition. -/
def callAll (condition : ClientReqNo → ReqNoCall → Prop) [∀ crn made, Decidable (condition crn made)]
    (fresh : ClientReqNo) (calls : List ReqNoCall) : Go (ClientReqNo × List Action) :=
  calls.foldlM (fun (crn, emitted) made =>
    if condition crn made then do
      let (after, actions) ← crn.call made
      pure (after, emitted ++ actions)
    else throw "the condition is not met") (fresh, [])

end ClientReqNo

/-- **The life of a request number**: its calls, all of which meet the condition, and what it has
emitted. -/
inductive ReqNoRun (condition : ClientReqNo → ReqNoCall → Prop) (fresh : ClientReqNo) :
    List ReqNoCall → ClientReqNo → List Action → Prop
  | start : ReqNoRun condition fresh [] fresh []
  | step {calls : List ReqNoCall} {crn after : ClientReqNo} {emitted actions : List Action}
      {call : ReqNoCall} (ran : ReqNoRun condition fresh calls crn emitted) (meets : condition crn call)
      (called : crn.call call = .ok (after, actions)) :
      ReqNoRun condition fresh (calls ++ [call]) after (emitted ++ actions)

namespace ClientReqNo

variable {crn after : ClientReqNo} {clientId reqNo : Nat} {actions : List Action} {ack : RequestAck}
  {digest : Bytes} {mine : List Bytes}

/-- What holds of a request number all its life. -/
structure Sound (clientId reqNo : Nat) (crn : ClientReqNo) : Prop where
  keyed : crn.Keyed clientId reqNo
  stocked : crn.Stocked
  acked : 0 < crn.acksSent → crn.myRequests ≠ []

/-- **What a call may ack**: the null request, or a request that is stored while no other one is. -/
def Acks (before after : ClientReqNo) (actions : List Action) : Prop :=
  ∃ digest, ∀ ack ∈ requestAcks actions, ack.digest ≠ [] →
    ack.digest = digest ∧ digest ∈ after.myRequests ∧
      ∀ other ∈ before.myRequests, other ≠ [] → other = digest

theorem acks_of_silent (silent : requestAcks actions = []) : Acks crn after actions :=
  ⟨[], fun ack member => by rw [silent] at member; cases member⟩

theorem mem_store :
    digest ∈ (crn.store ack).myRequests ↔ digest = ack.digest ∨ digest ∈ crn.myRequests :=
  mem_insert_iff

theorem length_store (isNew : ack.digest ∉ crn.myRequests) :
    (crn.store ack).myRequests.length = crn.myRequests.length + 1 := by
  show (crn.myRequests.insert ack.digest).length = _
  rw [insert_of_not_mem isNew, length_cons]

theorem applyNewRequest_spec (sound : crn.Sound clientId reqNo)
    (result : crn.applyNewRequest (crn.ackOf digest) = (after, actions)) :
    after.Sound clientId reqNo ∧ Acks crn after actions ∧
      ∀ other, other ∈ after.myRequests ↔ other = digest ∨ other ∈ crn.myRequests := by
  have isAck : crn.ackOf digest = ⟨clientId, reqNo, digest⟩ := by
    rw [ackOf, sound.keyed.client, sound.keyed.number]
  have keyed := sound.keyed.applyNewRequest digest
  rw [← isAck, result] at keyed
  have stored := sound.stocked.store (crn.ackOf digest)
  unfold applyNewRequest at result
  by_cases known : (crn.ackOf digest).digest ∈ crn.myRequests
  · rw [if_pos known] at result
    cases result
    exact ⟨sound, acks_of_silent rfl, fun other =>
      (or_iff_right_of_imp fun same => by rw [same]; exact known).symm⟩
  rw [if_neg known] at result
  have nonempty : (crn.store (crn.ackOf digest)).myRequests ≠ [] :=
    ne_nil_of_mem (mem_store.mpr (.inl rfl))
  by_cases single : (crn.store (crn.ackOf digest)).myRequests.length = 1
  · rw [if_pos single] at result
    cases result
    refine ⟨⟨keyed, ⟨stored.distinct, stored.stored⟩, fun _ => nonempty⟩, ⟨digest, fun ack member _ => ?_⟩,
      fun other => mem_store⟩
    have isThis : ack = crn.ackOf digest := mem_singleton.mp member
    refine ⟨by rw [isThis]; rfl, mem_store.mpr (.inl rfl), fun other mine => ?_⟩
    rw [length_store known] at single
    rw [eq_nil_of_length_eq_zero (Nat.succ.inj single)] at mine
    cases mine
  rw [if_neg single] at result
  by_cases null : [] ∉ (crn.store (crn.ackOf digest)).myRequests
  · rw [if_pos null] at result
    cases result
    exact ⟨⟨keyed, stored, fun _ => nonempty⟩, acks_of_silent rfl, fun other => mem_store⟩
  · rw [if_neg null] at result
    cases result
    rw [not_not] at null
    have both := stored.store (crn.store (crn.ackOf digest)).nullAck
    refine ⟨⟨keyed, ⟨both.distinct, both.stored⟩, fun _ => ne_nil_of_mem (mem_store.mpr (.inl rfl))⟩,
      ⟨[], fun ack member notNull => absurd ?_ notNull⟩, fun other => ?_⟩
    · rw [mem_singleton.mp member]
      rfl
    · refine mem_store.trans ⟨fun either => ?_, fun either => .inr (mem_store.mpr either)⟩
      rcases either with same | earlier
      · rw [same]
        exact mem_store.mp null
      · exact mem_store.mp earlier

theorem tickConflict_spec (sound : crn.Sound clientId reqNo) :
    crn.tickConflict.1.Sound clientId reqNo ∧
      (∀ ack ∈ requestAcks crn.tickConflict.2, ack.digest = []) ∧
      (∀ other ∈ crn.myRequests, other ∈ crn.tickConflict.1.myRequests) ∧
      (crn.Resendable → crn.tickConflict.1.Resendable) := by
  have keyed := sound.keyed.tickConflict
  unfold tickConflict at keyed ⊢
  by_cases promotes : [] ∉ crn.myRequests ∧ crn.weakRequests.length > 1
  · rw [if_pos promotes] at keyed ⊢
    have stored := sound.stocked.store crn.nullAck
    have null : [] ∈ (crn.store crn.nullAck).myRequests := mem_store.mpr (.inl rfl)
    refine ⟨⟨keyed, ⟨stored.distinct, stored.stored⟩, fun _ => ne_nil_of_mem null⟩, ?_, ?_, fun _ _ => null⟩
    · intro ack member
      rw [mem_singleton.mp member]
      rfl
    · exact fun other mine => mem_store.mpr (.inr mine)
  · rw [if_neg promotes]
    exact ⟨sound, nofun, fun other mine => mine, id⟩

theorem toResend_cons {first second : Bytes} {others : List Bytes} :
    toResend (first :: second :: others) =
      if [] ∈ first :: second :: others then some [] else none := rfl

/-- The ack of a request that is not null is resent only if no other request is stored. -/
theorem eq_of_toResend (resent : toResend mine = some digest)
    (notNull : digest ≠ []) : mine = [digest] := by
  match mine with
  | [] => cases resent
  | [first] =>
    cases resent
    rfl
  | first :: second :: others =>
    rw [toResend_cons] at resent
    split at resent
    · cases resent
      exact absurd rfl notNull
    · cases resent

theorem tick_spec (sound : crn.Sound clientId reqNo) (ticked : crn.tick = .ok (after, actions)) :
    after.Sound clientId reqNo ∧ Acks crn after actions ∧
      (∀ other ∈ crn.myRequests, other ∈ after.myRequests) ∧ (crn.Resendable → after.Resendable) := by
  rcases tick_eq_ok ticked with ⟨_, rfl, rfl⟩ |
    ⟨_, mid, asked, resent, acksSent, ticksSinceAck, only, ask, rfl, rfl, positive, isResent⟩
  · exact ⟨sound, acks_of_silent rfl, fun other mine => mine, id⟩
  obtain ⟨promoted, nulls, kept, resendable⟩ := tickConflict_spec sound
  have same := only.stock
  have keyed := only.keyed promoted.keyed
  have stocked := promoted.stocked.same same
  have acked : 0 < mid.acksSent → mid.myRequests ≠ [] := by
    rw [same.acksSent, same.mine]
    exact promoted.acked
  have mine : ∀ other ∈ crn.myRequests, other ∈ mid.myRequests := fun other isMine => by
    rw [same.mine]
    exact kept other isMine
  have stays : crn.Resendable → mid.Resendable := fun holds => by
    unfold Resendable
    rw [same.mine]
    exact resendable holds
  have quiet (more : List Action) : requestAcks (crn.tickConflict.2 ++ asked ++ more) =
      requestAcks crn.tickConflict.2 ++ requestAcks more := by
    rw [requestAcks_append, requestAcks_append, ask.requestAcks, append_nil]
  refine ⟨⟨keyed.same rfl rfl rfl, ⟨stocked.distinct, stocked.stored⟩, fun sent =>
    acked (positive sent)⟩, ?_, mine, stays⟩
  rcases isResent with rfl | ⟨ack, isAck, rfl⟩
  · refine ⟨[], fun ack member notNull => absurd (nulls ack ?_) notNull⟩
    rwa [quiet, show requestAcks [] = [] from rfl, append_nil] at member
  · obtain ⟨digest, isDigest, rfl⟩ := (ackToResend_eq_ok stocked keyed).mp isAck
    refine ⟨digest, fun ack member notNull => ?_⟩
    rw [quiet, mem_append] at member
    rcases member with promotedAck | isLast
    · exact absurd (nulls ack promotedAck) notNull
    · obtain rfl := mem_singleton.mp isLast
      have only := eq_of_toResend isDigest notNull
      refine ⟨rfl, only ▸ mem_cons_self, fun other isMine _ => ?_⟩
      exact mem_singleton.mp (only ▸ mine other isMine)

theorem exists_toResend (nonempty : mine ≠ [])
    (resendable : 1 < mine.length → [] ∈ mine) : ∃ digest, toResend mine = some digest := by
  match mine with
  | [] => exact absurd rfl nonempty
  | [first] => exact ⟨first, rfl⟩
  | first :: second :: others =>
    rw [toResend_cons, if_pos (resendable (by simp))]
    exact ⟨[], rfl⟩

/-- **A tick finds the ack that it resends.** -/
theorem tick_isOk (sound : crn.Sound clientId reqNo) (resendable : crn.Resendable) :
    ∃ result, crn.tick = .ok result := by
  cases isCommitted : crn.committed with
  | true =>
    unfold tick
    rw [if_pos isCommitted]
    exact ⟨_, rfl⟩
  | false =>
    obtain ⟨promoted, _, _, stays⟩ := tickConflict_spec sound
    obtain ⟨mid, asked, only, _, isTick⟩ := tick_eq isCommitted
    have same := only.stock
    rw [isTick]
    unfold tickResend
    split
    · exact ⟨_, rfl⟩
    rename_i sent
    split
    · exact ⟨_, rfl⟩
    have nonempty : mid.myRequests ≠ [] := by
      rw [same.acksSent] at sent
      rw [same.mine]
      exact promoted.acked (Nat.pos_of_ne_zero sent)
    obtain ⟨digest, isDigest⟩ := exists_toResend nonempty (by
      rw [same.mine]
      exact stays resendable)
    have found := (ackToResend_eq_ok (promoted.stocked.same same) (only.keyed promoted.keyed)).mpr
      ⟨digest, isDigest, rfl⟩
    rw [found]
    exact ⟨_, rfl⟩

/-- **What a call does to what is stored and acked.** -/
theorem call_spec (sound : crn.Sound clientId reqNo) {made : ReqNoCall}
    (called : crn.call made = .ok (after, actions)) :
    after.Sound clientId reqNo ∧ Acks crn after actions ∧
    ∀ other ∈ crn.myRequests, other ∈ after.myRequests := by
  have stays {next : ClientReqNo} (keyed : next.Keyed clientId reqNo) (same : SameStock crn next) :
      next.Sound clientId reqNo ∧ ∀ other ∈ crn.myRequests, other ∈ next.myRequests :=
    ⟨⟨keyed, sound.stocked.same same, by rw [same.acksSent, same.mine]; exact sound.acked⟩,
      fun other mine => by rwa [same.mine]⟩
  cases made with
  | persist digest =>
    obtain ⟨isSound, acks, mine⟩ := applyNewRequest_spec sound (Except.ok.inj called)
    exact ⟨isSound, acks, fun other isMine => (mine other).mpr (.inr isMine)⟩
  | ack nc source digest =>
    cases called
    have keyed : (crn.withAck nc source (crn.ackOf digest)).Keyed clientId reqNo := by
      rw [ackOf, sound.keyed.client, sound.keyed.number]
      exact sound.keyed.withAck nc source digest
    obtain ⟨isSound, mine⟩ := stays keyed (sameStock_withAck nc source (crn.ackOf digest))
    refine ⟨isSound, acks_of_silent ?_, mine⟩
    split <;> rfl
  | fetch digest =>
    simp only [call] at called
    split at called
    · cases called
      exact ⟨sound, acks_of_silent rfl, fun other mine => mine⟩
    · rename_i cr found
      cases called
      obtain ⟨isSound, mine⟩ := stays
        (sound.keyed.setRequest ((fetch_ack cr).trans (sound.keyed.acks digest cr found)))
        (onlyFetches_setRequest found (fetch_settled cr)).stock
      exact ⟨isSound, acks_of_silent (askFor_fetch cr).requestAcks, mine⟩
  | commit =>
    cases called
    have keyed : Keyed clientId reqNo { crn with committed := true } := sound.keyed.same rfl rfl rfl
    obtain ⟨isSound, mine⟩ := stays keyed ⟨rfl, fun _ => rfl, rfl⟩
    exact ⟨isSound, acks_of_silent rfl, mine⟩
  | restart nc committed =>
    cases called
    have keyed : Keyed clientId reqNo { crn with committed } := sound.keyed.same rfl rfl rfl
    have stocked : Stocked { crn with committed } := ⟨sound.stocked.distinct, sound.stocked.stored⟩
    obtain ⟨restocked, mine⟩ := stocked.reinitialized keyed nc
    refine ⟨⟨keyed.reinitialized nc, restocked, fun positive => ?_⟩, acks_of_silent rfl,
      fun other isMine => (mine other).mpr isMine⟩
    rw [(reinitialized_all keyed nc).acksSent] at positive
    obtain ⟨digest, isMine⟩ := exists_mem_of_ne_nil _ (sound.acked positive)
    exact ne_nil_of_mem ((mine digest).mpr isMine)
  | tick =>
    obtain ⟨isSound, acks, mine, _⟩ := tick_spec sound called
    exact ⟨isSound, acks, mine⟩

theorem length_eq_of_mem {mine others : List Bytes} (distinct : mine.Nodup) (alsoDistinct : others.Nodup)
    (same : ∀ digest, digest ∈ mine ↔ digest ∈ others) : mine.length = others.length :=
  ((perm_ext_iff_of_nodup distinct alsoDistinct).mpr same).length_eq

/-- **Exactly a conflicting request breaks it.** -/
theorem resendable_iff (sound : crn.Sound clientId reqNo) (resendable : crn.Resendable) (made : ReqNoCall) :
    (∃ result, crn.call made = .ok result ∧ result.1.Resendable) ↔ ¬ crn.Conflicts made := by
  have stays {next : ClientReqNo} (mine : next.myRequests = crn.myRequests) : next.Resendable := by
    unfold Resendable
    rw [mine]
    exact resendable
  cases made with
  | persist digest =>
    simp only [call, pure, Except.pure, Except.ok.injEq, exists_eq_left']
    cases isResult : crn.applyNewRequest (crn.ackOf digest) with
    | mk after actions =>
    obtain ⟨isSound, _, mine⟩ := applyNewRequest_spec sound isResult
    by_cases known : digest ∈ crn.myRequests
    · have length := length_eq_of_mem isSound.stocked.distinct sound.stocked.distinct fun other =>
        (mine other).trans (or_iff_right_of_imp fun same => by rw [same]; exact known)
      refine ⟨fun _ conflicts => conflicts.2.1 known, fun _ several => (mine []).mpr (.inr ?_)⟩
      exact resendable (length ▸ several)
    · have distinct : (digest :: crn.myRequests).Nodup := nodup_cons.mpr ⟨known, sound.stocked.distinct⟩
      have length := length_eq_of_mem isSound.stocked.distinct distinct fun other =>
        (mine other).trans mem_cons.symm
      rw [length_cons] at length
      constructor
      · intro holds conflicts
        have several : 1 < after.myRequests.length := by
          have positive := length_pos_of_ne_nil conflicts.2.2.1
          omega
        rcases (mine []).mp (holds several) with same | isMine
        · exact conflicts.1 same.symm
        · exact conflicts.2.2.2 isMine
      · intro compatible several
        by_contra missing
        rw [mine, not_or] at missing
        refine compatible ⟨fun null => missing.1 null.symm, known, fun empty => ?_, missing.2⟩
        rw [empty] at length
        exact absurd several (by rw [length]; decide)
  | ack nc source digest =>
    exact ⟨fun _ => id, fun _ => ⟨_, rfl, stays (sameStock_withAck nc source _).mine⟩⟩
  | fetch digest =>
    refine ⟨fun _ => id, fun _ => ?_⟩
    simp only [call]
    split
    · exact ⟨_, rfl, resendable⟩
    · exact ⟨_, rfl, stays rfl⟩
  | commit => exact ⟨fun _ => id, fun _ => ⟨_, rfl, stays rfl⟩⟩
  | restart nc committed =>
    refine ⟨fun _ => id, fun _ => ⟨_, rfl, fun several => ?_⟩⟩
    have keyed : Keyed clientId reqNo { crn with committed } := sound.keyed.same rfl rfl rfl
    have stocked : Stocked { crn with committed } := ⟨sound.stocked.distinct, sound.stocked.stored⟩
    obtain ⟨restocked, mine⟩ := stocked.reinitialized keyed nc
    have length := length_eq_of_mem restocked.distinct sound.stocked.distinct mine
    exact (mine []).mpr (resendable (length ▸ several))
  | tick =>
    obtain ⟨result, ticked⟩ := tick_isOk sound resendable
    exact ⟨fun _ => id, fun _ => ⟨result, ticked, (tick_spec sound ticked).2.2.2 resendable⟩⟩

end ClientReqNo

namespace ReqNoRun

variable {condition : ClientReqNo → ReqNoCall → Prop} {clientId reqNo validAfterSeqNo : Nat}
  {nc : NetworkConfig} {calls : List ReqNoCall} {crn : ClientReqNo} {emitted : List Action}

theorem of_callAll [∀ crn made, Decidable (condition crn made)] {fresh : ClientReqNo}
    (ran : ClientReqNo.callAll condition fresh calls = .ok (crn, emitted)) :
    ReqNoRun condition fresh calls crn emitted := by
  induction calls using List.reverseRecOn generalizing crn emitted with
  | nil =>
    cases ran
    exact .start
  | append_singleton calls made ih =>
    unfold ClientReqNo.callAll at ran
    rw [foldlM_append] at ran
    obtain ⟨⟨before, earlier⟩, ranBefore, last⟩ := bind_eq_ok.mp ran
    obtain ⟨_, stepped, isEnd⟩ := bind_eq_ok.mp last
    cases isEnd
    by_cases meets : condition before made
    · simp only [if_pos meets] at stepped
      obtain ⟨⟨after, actions⟩, called, isResult⟩ := bind_eq_ok.mp stepped
      cases isResult
      exact (ih ranBefore).step meets called
    · simp only [if_neg meets] at stepped
      cases stepped

section

variable (ran : ReqNoRun condition (newClientReqNo clientId reqNo nc validAfterSeqNo) calls crn emitted)
include ran

theorem sound : crn.Sound clientId reqNo := by
  induction ran with
  | start =>
    exact ⟨keyed_new .., stocked_new .., fun positive => absurd positive (Nat.lt_irrefl 0)⟩
  | step _ _ called ih => exact (call_spec ih called).1

/-- The only request other than the null request that has been acked is stored. -/
theorem acked : ∃ digest, ∀ ack ∈ requestAcks emitted, ack.digest ≠ [] →
      ack.digest = digest ∧ digest ∈ crn.myRequests := by
  induction ran with
  | start => exact ⟨[], nofun⟩
  | @step calls crn after emitted actions call ran _ called ih =>
    obtain ⟨_, ⟨next, newAcks⟩, kept⟩ := call_spec ran.sound called
    obtain ⟨digest, earlier⟩ := ih
    by_cases none : ∀ ack ∈ requestAcks emitted, ack.digest = []
    · refine ⟨next, fun ack member notNull => ?_⟩
      rw [requestAcks_append, mem_append] at member
      rcases member with before | now
      · exact absurd (none ack before) notNull
      · obtain ⟨same, mine, _⟩ := newAcks ack now notNull
        exact ⟨same, mine⟩
    · simp only [not_forall] at none
      obtain ⟨first, isFirst, firstNotNull⟩ := none
      obtain ⟨isDigest, stored⟩ := earlier first isFirst firstNotNull
      refine ⟨digest, fun ack member notNull => ?_⟩
      rw [requestAcks_append, mem_append] at member
      rcases member with before | now
      · exact ⟨(earlier ack before notNull).1, kept _ stored⟩
      · -- Only a request that is alone is acked, and the first one is there.
        obtain ⟨same, _, alone⟩ := newAcks ack now notNull
        refine ⟨?_, kept _ stored⟩
        rw [same, alone digest stored (isDigest ▸ firstNotNull)]

/-- **What there is to resend.** All its life, a request number that has sent an ack has a request,
and it has acked at most one that is not the null request. As long as several requests have the null
request among them, a call keeps it so, and does not panic, exactly if it does not bring a
conflicting request; so it is always so in a life without such calls. -/
theorem resend_has_ack :
    (0 < crn.acksSent → crn.myRequests ≠ []) ∧
    (∀ first ∈ requestAcks emitted, ∀ second ∈ requestAcks emitted,
      first.digest ≠ [] → second.digest ≠ [] → first.digest = second.digest) ∧
    (crn.Resendable → ∀ made,
      (∃ result, crn.call made = .ok result ∧ result.1.Resendable) ↔ ¬ crn.Conflicts made) ∧
    ((∀ before made, condition before made → ¬ before.Conflicts made) → crn.Resendable) := by
  refine ⟨ran.sound.acked, ?_, resendable_iff ran.sound, fun compatible => ?_⟩
  · obtain ⟨digest, only⟩ := ran.acked
    intro first isFirst second isSecond firstNotNull secondNotNull
    rw [(only first isFirst firstNotNull).1, (only second isSecond secondNotNull).1]
  · induction ran with
    | start => exact fun several => absurd several (Nat.not_lt_zero 1)
    | step ran meets called ih =>
      obtain ⟨result, isResult, holds⟩ :=
        (resendable_iff ran.sound ih _).mpr (compatible _ _ meets)
      rw [called] at isResult
      cases isResult
      exact holds

end

/-- A request is persisted, acked and resent; then the null request is. -/
theorem resend_of_null :
    let fresh := newClientReqNo 7 0 FourNodes.networkConfig 0
    let calls := .persist [1] :: List.replicate 21 .tick ++ [.persist []]
    ∃ crn emitted, ReqNoRun (fun crn made => ¬ crn.Conflicts made) fresh calls crn emitted ∧
      (requestAcks emitted).map RequestAck.digest = [[1], [1], []] ∧ crn.Resendable := by
  have ran : ReqNoRun (fun crn made => ¬ crn.Conflicts made)
      (newClientReqNo 7 0 FourNodes.networkConfig 0)
      (.persist [1] :: List.replicate 21 .tick ++ [.persist []]) _ _ := .of_callAll rfl
  exact ⟨_, _, ran, by decide +kernel, (resend_has_ack ran).2.2.2 fun _ _ compatible => compatible⟩

/-- Two requests of a Byzantine client are persisted. Both are there, the null request is not, and
the tick at which the ack is due finds nothing to send. -/
theorem resend_of_conflict :
    let fresh := newClientReqNo 7 0 FourNodes.networkConfig 0
    let calls := [.persist [1], .persist [2]] ++ List.replicate 20 .tick
    ∃ crn emitted, ReqNoRun (fun _ _ => True) fresh calls crn emitted ∧
      1 < crn.myRequests.length ∧ [] ∉ crn.myRequests ∧ 0 < crn.acksSent ∧
      crn.call .tick = .error "nil pointer dereference: myRequests" :=
  ⟨_, _, .of_callAll rfl, by decide +kernel, by decide +kernel, by decide +kernel, rfl⟩

end ReqNoRun

/-! ### How many digests a request number stores -/

namespace ClientReqNo

/-- The digests of the requests, but for the null request's. -/
def nonNullDigests (crn : ClientReqNo) : Finset Bytes := crn.requests.keys.toFinset.erase []

variable {digest : Bytes}

theorem mem_nonNullDigests {crn : ClientReqNo} :
    digest ∈ crn.nonNullDigests ↔ digest ≠ [] ∧ ∃ cr, crn.requests.lookup digest = some cr := by
  rw [nonNullDigests, Finset.mem_erase, mem_toFinset, ← Option.isSome_iff_exists, AList.lookup_isSome]
  rfl

/-- **The documented rule**: an ack is for the null request or for one that is known to be correct,
or its node has acked no other one but the null request. -/
def FirstAck (crn : ClientReqNo) : ReqNoCall → Prop
  | .ack _ source digest => digest = [] ∨ digest ∈ crn.weakRequests ∨
    ∀ other cr, other ≠ [] → other ≠ digest → crn.requests.lookup other = some cr → source ∉ cr.agreements
  | _ => True

/-- The calls are acks of the network's nodes, and restarts under the same configuration. -/
def OfAcks (nc : NetworkConfig) : ReqNoCall → Prop
  | .ack used source _ => used = nc ∧ source ∈ nc.nodes
  | .restart used _ => used = nc
  | _ => False

/-- The digests that are acked. -/
def ackedDigests (calls : List ReqNoCall) : List Bytes :=
  calls.filterMap fun
    | .ack _ _ digest => some digest
    | _ => none

variable {crn after : ClientReqNo} {nc : NetworkConfig} {actions : List Action} {source : NodeID}
  {node : NodeID}

/-- Every request has an ack of one of the nodes, and the correct requests are among them. -/
structure Voted (nc : NetworkConfig) (crn : ClientReqNo) : Prop where
  voters : ∀ digest cr, crn.requests.lookup digest = some cr →
    ∃ node ∈ nc.nodes, node ∈ cr.agreements
  weak : ∀ digest ∈ crn.weakRequests, ∃ cr, crn.requests.lookup digest = some cr

/-- **Each request but the null request is some node's own**: one that acked it, and that no other
is. -/
def Attributed (nc : NetworkConfig) (crn : ClientReqNo) : Prop :=
  ∃ voter : Bytes → NodeID,
    (∀ digest cr, digest ≠ [] → crn.requests.lookup digest = some cr →
      voter digest ∈ nc.nodes ∧ voter digest ∈ cr.agreements) ∧
    Set.InjOn voter crn.nonNullDigests

theorem Attributed.card_le (attributed : Attributed nc crn) :
    crn.nonNullDigests.card ≤ nc.nodes.length := by
  obtain ⟨voter, votes, injective⟩ := attributed
  calc crn.nonNullDigests.card
      ≤ nc.nodes.toFinset.card := by
        refine Finset.card_le_card_of_injOn voter (fun digest member => ?_) injective
        obtain ⟨notNull, cr, found⟩ := mem_nonNullDigests.mp member
        exact mem_toFinset.mpr (votes digest cr notNull found).1
    _ ≤ nc.nodes.length := nc.nodes.toFinset_card_le

theorem lookup_withAck (used : NetworkConfig) (source : NodeID) (ack : RequestAck) (digest : Bytes) :
    (crn.withAck used source ack).requests.lookup digest =
      if digest = ack.digest then some (crn.acked source ack) else crn.requests.lookup digest := by
  show (crn.requests.insert ack.digest (crn.acked source ack)).lookup digest = _
  split
  · rename_i same
    rw [same, AList.lookup_insert]
  · rename_i different
    rw [AList.lookup_insert_ne different]

theorem mem_acked {ack : RequestAck} {cr : ClientRequest}
    (found : crn.requests.lookup ack.digest = some cr) (member : node ∈ cr.agreements) :
    node ∈ (crn.acked source ack).agreements := by
  refine Finset.mem_insert_of_mem ?_
  rw [clientReq, found]
  exact member

theorem Voted.withAck (voted : Voted nc crn)
    (isNode : source ∈ nc.nodes) (ack : RequestAck) :
    Voted nc (crn.withAck nc source ack) := by
  refine ⟨fun digest cr found => ?_, fun digest member => ?_⟩
  · rw [lookup_withAck] at found
    split at found
    · cases found
      exact ⟨source, isNode, Finset.mem_insert_self _ _⟩
    · exact voted.voters digest cr found
  · rw [lookup_withAck]
    split
    · exact ⟨_, rfl⟩
    · rename_i different
      refine voted.weak digest ?_
      have isWeak : digest ∈ if (crn.acked source ack).agreements.card = someCorrectQuorum nc then
          crn.weakRequests.insert ack.digest else crn.weakRequests := member
      split at isWeak
      · exact (mem_insert_iff.mp isWeak).resolve_left different
      · exact isWeak

theorem kept_eq_some {old cr : ClientRequest} (isKept : kept nc old = some cr) :
    cr.agreements = old.agreements.filter (· ∈ nc.nodes) := by
  unfold kept at isKept
  split at isKept
  · cases isKept
  · cases isKept
    rfl

theorem kept_of_voter {old : ClientRequest} (isNode : node ∈ nc.nodes)
    (votes : node ∈ old.agreements) : ∃ cr, kept nc old = some cr := by
  unfold kept
  split
  · rename_i unvoted
    exact absurd (unvoted.1 ▸ Finset.mem_filter.mpr ⟨votes, isNode⟩) (Finset.notMem_empty node)
  · exact ⟨_, rfl⟩

section Restarted

variable {clientId reqNo : Nat} (keyed : crn.Keyed clientId reqNo) {digest : Bytes}

include keyed

theorem lookup_of_reinitialized {cr : ClientRequest}
    (found : (ClientReqNo.reinitialize crn nc).requests.lookup digest = some cr) :
    ∃ old, crn.requests.lookup digest = some old ∧
      cr.agreements = old.agreements.filter (· ∈ nc.nodes) := by
  rw [reinitialized_lookup keyed] at found
  obtain ⟨old, isOld, isKept⟩ := Option.bind_eq_some_iff.mp found
  exact ⟨old, isOld, kept_eq_some isKept⟩

theorem Voted.lookup_reinitialized (voted : Voted nc crn) {old : ClientRequest}
    (found : crn.requests.lookup digest = some old) :
    ∃ cr, (ClientReqNo.reinitialize crn nc).requests.lookup digest = some cr := by
  rw [reinitialized_lookup keyed, found]
  obtain ⟨node, isNode, votes⟩ := voted.voters digest old found
  exact kept_of_voter isNode votes

theorem Voted.reinitialized (voted : Voted nc crn) :
    Voted nc (ClientReqNo.reinitialize crn nc) := by
  refine ⟨fun digest cr found => ?_, fun digest member => ?_⟩
  · obtain ⟨old, isOld, agreements⟩ := lookup_of_reinitialized keyed found
    obtain ⟨node, isNode, votes⟩ := voted.voters digest old isOld
    exact ⟨node, isNode, agreements ▸ Finset.mem_filter.mpr ⟨votes, isNode⟩⟩
  · obtain ⟨old, isOld, _⟩ := (mem_reinitialized_weak keyed nc digest).mp member
    exact voted.lookup_reinitialized keyed isOld

theorem Voted.nonNullDigests_reinitialized (voted : Voted nc crn) :
    (ClientReqNo.reinitialize crn nc).nonNullDigests = crn.nonNullDigests := by
  ext digest
  rw [mem_nonNullDigests, mem_nonNullDigests]
  refine and_congr_right fun _ => ⟨fun ⟨cr, found⟩ => ?_, fun ⟨old, found⟩ => ?_⟩
  · obtain ⟨old, isOld, _⟩ := lookup_of_reinitialized keyed found
    exact ⟨old, isOld⟩
  · exact voted.lookup_reinitialized keyed found

theorem Attributed.reinitialized (attributed : Attributed nc crn) (voted : Voted nc crn) :
    Attributed nc (ClientReqNo.reinitialize crn nc) := by
  obtain ⟨voter, votes, injective⟩ := attributed
  refine ⟨voter, fun digest cr notNull found => ?_, ?_⟩
  · obtain ⟨old, isOld, agreements⟩ := lookup_of_reinitialized keyed found
    obtain ⟨isNode, isVoter⟩ := votes digest old notNull isOld
    exact ⟨isNode, agreements ▸ Finset.mem_filter.mpr ⟨isVoter, isNode⟩⟩
  · rw [voted.nonNullDigests_reinitialized keyed]
    exact injective

end Restarted

theorem nonNullDigests_withAck (used : NetworkConfig) (source : NodeID) (ack : RequestAck) :
    (crn.withAck used source ack).nonNullDigests =
      if ack.digest = [] then crn.nonNullDigests else insert ack.digest crn.nonNullDigests := by
  ext digest
  rw [mem_nonNullDigests, lookup_withAck]
  by_cases null : ack.digest = []
  · rw [if_pos null, mem_nonNullDigests]
    refine and_congr_right fun notNull => ?_
    rw [if_neg (null ▸ notNull)]
  · rw [if_neg null, Finset.mem_insert, mem_nonNullDigests]
    by_cases same : digest = ack.digest
    · rw [if_pos same]
      exact ⟨fun _ => .inl same, fun _ => ⟨same ▸ null, _, rfl⟩⟩
    · rw [if_neg same, or_iff_right same]

/-- **An ack by the rule keeps the requests apart.** -/
theorem Attributed.withAck (attributed : Attributed nc crn) (voted : Voted nc crn)
    (isNode : source ∈ nc.nodes) (used : NetworkConfig)
    (first : crn.FirstAck (.ack nc source digest)) :
    Attributed nc (crn.withAck used source (crn.ackOf digest)) := by
  obtain ⟨voter, votes, injective⟩ := attributed
  by_cases known : digest = [] ∨ ∃ cr, crn.requests.lookup digest = some cr
  · -- No digest is added.
    have same : (crn.withAck used source (crn.ackOf digest)).nonNullDigests = crn.nonNullDigests := by
      rw [nonNullDigests_withAck]
      split
      · rfl
      · rename_i notNull
        exact Finset.insert_eq_of_mem (mem_nonNullDigests.mpr ⟨notNull, known.resolve_left notNull⟩)
    refine ⟨voter, fun other cr notNull found => ?_, same ▸ injective⟩
    rw [lookup_withAck] at found
    split at found
    · rename_i isThis
      obtain ⟨old, isOld⟩ := known.resolve_left fun null => notNull (isThis.trans null)
      cases found
      obtain ⟨voterIsNode, isVoter⟩ := votes other old notNull (by rw [isThis]; exact isOld)
      exact ⟨voterIsNode, mem_acked isOld isVoter⟩
    · exact votes other cr notNull found
  · rw [not_or] at known
    obtain ⟨notNull, isNew⟩ := known
    have unacked : ∀ other cr, other ≠ [] → other ≠ digest → crn.requests.lookup other = some cr →
        source ∉ cr.agreements := by
      rcases first with null | weak | only
      · exact absurd null notNull
      · exact absurd (voted.weak digest weak) isNew
      · exact only
    refine ⟨update voter digest source, fun other cr otherNotNull found => ?_, ?_⟩
    · rw [lookup_withAck] at found
      split at found
      · rename_i isThis
        cases found
        rw [isThis, show (crn.ackOf digest).digest = digest from rfl, update_self]
        exact ⟨isNode, Finset.mem_insert_self _ _⟩
      · rename_i isOther
        rw [update_of_ne (show other ≠ digest from isOther)]
        exact votes other cr otherNotNull found
    · rw [nonNullDigests_withAck, if_neg (show (crn.ackOf digest).digest ≠ [] from notNull),
        Finset.coe_insert]
      have apart : ∀ other ∈ crn.nonNullDigests, other ≠ digest ∧ voter other ≠ source := by
        intro other member
        obtain ⟨otherNotNull, cr, found⟩ := mem_nonNullDigests.mp member
        have different : other ≠ digest := fun same => isNew ⟨cr, same ▸ found⟩
        refine ⟨different, fun same => ?_⟩
        exact unacked other cr otherNotNull different found (same ▸ (votes other cr otherNotNull found).2)
      have unknown : digest ∉ (crn.nonNullDigests : Set Bytes) :=
        fun member => isNew (mem_nonNullDigests.mp member).2
      refine (Set.injOn_insert unknown).mpr ⟨?_, ?_⟩
      · intro one isOne two isTwo same
        rw [update_of_ne (apart one isOne).1, update_of_ne (apart two isTwo).1] at same
        exact injective isOne isTwo same
      · rintro ⟨other, member, same⟩
        rw [update_of_ne (apart other member).1, update_self] at same
        exact (apart other member).2 same

end ClientReqNo

namespace ReqNoRun

open ClientReqNo

variable {condition : ClientReqNo → ReqNoCall → Prop} {clientId reqNo validAfterSeqNo : Nat}
  {nc : NetworkConfig} {calls : List ReqNoCall} {crn : ClientReqNo} {emitted : List Action}

theorem voted (ran : ReqNoRun condition (newClientReqNo clientId reqNo nc validAfterSeqNo) calls
      crn emitted) (ofAcks : ∀ before made, condition before made → OfAcks nc made) :
    Voted nc crn ∧ crn.nonNullDigests = (ackedDigests calls).toFinset.erase [] ∧
      ((∀ before made, condition before made → before.FirstAck made) → Attributed nc crn) := by
  induction ran with
  | start =>
    refine ⟨⟨nofun, nofun⟩, rfl, fun _ => ⟨fun _ => 0, nofun, fun one isOne => ?_⟩⟩
    exact absurd isOne (Finset.notMem_empty one)
  | @step calls crn after _ _ made ran meets called ih =>
    obtain ⟨voted, digests, attributed⟩ := ih
    have isAcks := ofAcks _ _ meets
    rw [ackedDigests, filterMap_append]
    cases made with
    | ack used source digest =>
      obtain ⟨rfl, isNode⟩ := isAcks
      cases called
      refine ⟨voted.withAck isNode _, ?_, fun rule => (attributed rule).withAck voted isNode _
        (rule _ _ meets)⟩
      rw [nonNullDigests_withAck, digests]
      show (if digest = [] then _ else insert digest _) = (ackedDigests calls ++ [digest]).toFinset.erase []
      rw [toFinset_append, toFinset_cons, toFinset_nil, Finset.union_insert, Finset.union_empty]
      split
      · rename_i null
        rw [null, Finset.erase_insert_eq_erase]
      · rename_i notNull
        rw [Finset.erase_insert_of_ne notNull]
    | restart used committed =>
      cases isAcks
      cases called
      have keyed : Keyed clientId reqNo { crn with committed } := ran.sound.keyed.same rfl rfl rfl
      have same : Voted nc { crn with committed } := ⟨voted.voters, voted.weak⟩
      have restarted (attributed : Attributed nc { crn with committed }) :=
        attributed.reinitialized keyed same
      refine ⟨same.reinitialized keyed, ?_, fun rule => restarted (attributed rule)⟩
      rw [same.nonNullDigests_reinitialized keyed, filterMap_cons_none rfl, filterMap_nil,
        append_nil]
      exact digests
    | persist _ | fetch _ | commit | tick => exact isAcks.elim

/-- **What acks store.** A request number stores the requests that its nodes ack, all of them but
for repeated ones. So as many as there are nodes are the bound exactly if no more are acked, and in
particular if each node keeps to the rule. -/
theorem acks_bounded_iff (ran : ReqNoRun condition
      (newClientReqNo clientId reqNo nc validAfterSeqNo) calls crn emitted)
    (ofAcks : ∀ before made, condition before made → OfAcks nc made) :
    crn.nonNullDigests = (ackedDigests calls).toFinset.erase [] ∧
    (crn.nonNullDigests.card ≤ nc.nodes.length ↔
      ((ackedDigests calls).toFinset.erase []).card ≤ nc.nodes.length) ∧
    ((∀ before made, condition before made → before.FirstAck made) →
      crn.nonNullDigests.card ≤ nc.nodes.length) := by
  obtain ⟨_, digests, attributed⟩ := ran.voted ofAcks
  exact ⟨digests, by rw [digests], fun rule => (attributed rule).card_le⟩

/-- Two nodes ack a request each, one of them the null request as well: as the rule has it. -/
theorem acks_bounded_of_two :
    let calls := [.ack FourNodes.networkConfig 1 [1], .ack FourNodes.networkConfig 2 [2],
      .ack FourNodes.networkConfig 2 []]
    ∃ crn emitted, ReqNoRun (fun before made => OfAcks FourNodes.networkConfig made ∧ before.FirstAck made)
        (newClientReqNo 7 0 FourNodes.networkConfig 0) calls crn emitted ∧
      crn.nonNullDigests = [[1], [2]].toFinset ∧
      crn.nonNullDigests.card ≤ FourNodes.networkConfig.nodes.length := by
  let fresh := newClientReqNo 7 0 FourNodes.networkConfig 0
  have second : (fresh.withAck FourNodes.networkConfig 1 (fresh.ackOf [1])).FirstAck
      (.ack FourNodes.networkConfig 2 [2]) := by
    refine .inr (.inr fun other cr _ _ found => ?_)
    rw [lookup_withAck] at found
    split at found
    · cases found
      decide
    · cases found
  have ran : ReqNoRun (fun before made => OfAcks FourNodes.networkConfig made ∧ before.FirstAck made) fresh
      ([] ++ [.ack FourNodes.networkConfig 1 [1]] ++ [.ack FourNodes.networkConfig 2 [2]] ++
        [.ack FourNodes.networkConfig 2 []]) _ _ :=
    ((ReqNoRun.start.step ⟨⟨rfl, by decide⟩, .inr (.inr nofun)⟩ rfl).step ⟨⟨rfl, by decide⟩, second⟩ rfl).step
      ⟨⟨rfl, by decide⟩, .inl rfl⟩ rfl
  have bounded := acks_bounded_iff ran fun _ _ keeps => keeps.1
  exact ⟨_, _, ran, bounded.1.trans (by decide), bounded.2.2 fun _ _ keeps => keeps.2⟩

/-- One of four nodes acks five requests, and all of them are stored. -/
theorem acks_unbounded :
    let calls := [[1], [2], [3], [4], [5]].map fun digest => ReqNoCall.ack FourNodes.networkConfig 3 digest
    ∃ crn emitted, ReqNoRun (fun _ _ => True) (newClientReqNo 7 0 FourNodes.networkConfig 0) calls
        crn emitted ∧
      (∀ made ∈ calls, OfAcks FourNodes.networkConfig made) ∧
      FourNodes.networkConfig.nodes.length = 4 ∧ crn.nonNullDigests.card = 5 := by
  refine ⟨_, _, .of_callAll rfl, ?_, rfl, by decide +kernel⟩
  intro made member
  obtain ⟨digest, _, rfl⟩ := mem_map.mp member
  exact ⟨rfl, by decide⟩

end ReqNoRun

end MirBft
