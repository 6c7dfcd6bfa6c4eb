import CaviErp.Forge.Proofs.ErpProofs

/-!
# Creates are posted once

A create is addressed to the key of its own write, which no retry changes and no other write has. So all
PUTs to one record come from one write and have the same payload, and repeating them changes nothing.
-/

namespace CaviErp

open Py

/-! ## What a proposal asks for -/

namespace ForgeWriteAgent

variable {cfg : Config} {client : NetSuiteClient}

/-- The write goes to a record of its own, and a call proposed it with the payload that it has. -/
structure Posting (calls : List ErpCall) (op : WriteOperation) : Prop where
  target : op.targetExternalId = .null
  proposed : ∃ call ∈ calls, ProposedWith call op.writeId op.payload

theorem Posting.mono {calls : List ErpCall} {op : WriteOperation} (h : Posting calls op)
    (call : ErpCall) : Posting (calls ++ [call]) op := by
  obtain ⟨call', hcall', hproposed⟩ := h.proposed
  exact ⟨h.target, call', List.mem_append_left _ hcall', hproposed⟩

/-- A proposal or a reversal without a target makes a write to a record of its own. -/
theorem Proposes.posting {calls : List ErpCall} {call : ErpCall} {self : ForgeWriteAgent}
    {op : WriteOperation} (h : Proposes (call.clientEnv client) call.event self op)
    (hcreate : CreateOnly call.event) : Posting (calls ++ [call]) op := by
  have hid : call.env.coordinator.newId = op.writeId := h.minted.1.symm
  have hmem : call ∈ calls ++ [call] := List.mem_append_right _ List.mem_cons_self
  cases h with
  | proposal hsub hr hop =>
    obtain ⟨hdict, -, -, -, -, -, htarget⟩ := request_carries hop
    obtain ⟨-, -, hpayload, hnull⟩ := WriteRequest.ofKwargs_items hr
    refine ⟨?_, call, hmem, .inl hsub, hid, _, hpayload, hdict⟩
    rcases hnull with hnull | hgiven
    · exact htarget.trans hnull
    · exact htarget.trans (hcreate.target hsub _ hgiven)
  | reversal hsub _ _ _ hpayload _ _ hop =>
    unfold WriteCoordinator.requestReversal at hop
    split at hop
    · cases hop
    · obtain ⟨hdict, -, -, -, -, -, htarget⟩ := request_carries hop
      exact ⟨htarget, call, hmem, .inr hsub, hid, _, hpayload, hdict⟩

/-- Everything that is pending or was carried out goes to a record of its own. -/
structure Booked (calls : List ErpCall) (v : Scene) : Prop where
  pending : ∀ writeId op, v.pending writeId = some op → Posting calls op
  history : ∀ p ∈ v.history, Posting calls p.op

theorem Booked.mono {calls : List ErpCall} {v : Scene} (h : Booked calls v) (call : ErpCall) :
    Booked (calls ++ [call]) v :=
  ⟨fun writeId op hop => (h.pending writeId op hop).mono call,
    fun p hp => (h.history p hp).mono call⟩

theorem Booked.update {calls : List ErpCall} {v : Scene} (h : Booked calls v) (writeId : String)
    {x : Option WriteOperation} (hx : ∀ op, x = some op → Posting calls op) :
    Booked calls { v with pending := Function.update v.pending writeId x } := by
  refine ⟨?_, h.history⟩
  intro id op hop
  rcases update_eq_some hop with ⟨-, hop⟩ | ⟨-, hop⟩
  · exact hx op hop
  · exact h.pending id op hop

theorem Booked.ran {calls : List ErpCall} {net : Net} {admitted : Prop} {op : WriteOperation}
    {v v' : Scene} (h : Booked calls v) (hop : Posting calls op)
    (hran : Ran client net admitted op v v') : Booked calls v' := by
  cases hran with
  | refused => exact h
  | failed _ =>
    refine ⟨h.pending, ?_⟩
    intro p hp
    rcases List.mem_append.mp hp with hp | hp
    · exact h.history p hp
    · split at hp
      · obtain rfl := List.mem_singleton.mp hp
        exact hop
      · cases hp
  | returned _ _ =>
    refine ⟨(h.update op.writeId fun _ hx => by cases hx).pending, ?_⟩
    intro p hp
    rcases List.mem_append.mp hp with hp | hp
    · exact h.history p hp
    · obtain rfl := List.mem_singleton.mp hp
      exact hop

theorem Booked.stepped {calls : List ErpCall} {call : ErpCall} {w : World} {v v' : Scene}
    (h : Booked calls v) (hcreate : CreateOnly call.event) (hstep : Stepped cfg client call w v v') :
    Booked (calls ++ [call]) v' := by
  cases hstep with
  | idle => exact h.mono call
  | proposed hp =>
    refine (h.mono call).update _ ?_
    intro op' hop'
    obtain rfl := Option.some.inj hop'
    exact hp.posting hcreate
  | rejected _ => exact (h.mono call).update _ fun _ hx => by cases hx
  | executed happroval hop hran =>
    rename_i writeId op
    -- approving and retrying change the state of the write only
    have hposting : Posting (calls ++ [call]) { op with state := .approved } := by
      obtain ⟨htarget, hproposed⟩ := (h.mono call).pending _ _ hop
      exact ⟨htarget, hproposed⟩
    refine ((h.mono call).update writeId ?_).ran hposting hran
    intro op' hop'
    obtain rfl := Option.some.inj hop'
    exact hposting

theorem run_booked (cfg : Config) (client : NetSuiteClient) (calls : List ErpCall)
    (hcreate : ∀ call ∈ calls, CreateOnly call.event) :
    Booked calls (System.run cfg client calls).scene := by
  induction calls using List.reverseRecOn with
  | nil => exact ⟨fun _ _ hop => (by cases hop), fun _ hp => (by cases hp)⟩
  | append_singleton calls call ih =>
    have hbefore := ih fun call' hcall' => hcreate call' (List.mem_append_left _ hcall')
    rw [run_snoc]
    exact hbefore.stepped (hcreate call (List.mem_append_right _ List.mem_cons_self))
      (step_spec cfg client _ call)

/-! ## The records -/

theorem Posting.recordId_eq {calls : List ErpCall} {op : WriteOperation} (h : Posting calls op) :
    recordId op = "cavi-" ++ op.writeId := by
  unfold recordId WriteOperation.erpAddress
  rw [h.target]
  rfl

theorem cavi_injective {id id' : String} (h : "cavi-" ++ id = "cavi-" ++ id') : id = id' := by
  have hlist := congrArg String.toList h
  rw [String.toList_append, String.toList_append] at hlist
  exact String.toList_inj.mp (List.append_cancel_left hlist)

/-- Two PUTs of one write have the same fields: ids do not repeat, so one call proposed the write. -/
theorem Posting.fields_eq {calls : List ErpCall}
    (hids : (calls.map fun call => call.env.coordinator.newId).Nodup) {op op' : WriteOperation}
    (h : Posting calls op) (h' : Posting calls op') (hid : op.writeId = op'.writeId) :
    fieldsOf op = fieldsOf op' := by
  obtain ⟨call, hcall, -, hnew, v, hv, hdict⟩ := h.proposed
  obtain ⟨call', hcall', -, hnew', v', hv', hdict'⟩ := h'.proposed
  have hsame : call = call' := by
    refine List.inj_on_of_nodup_map hids hcall hcall' ?_
    rw [hnew, hnew', hid]
  subst hsame
  obtain rfl : v = v' := Except.ok.inj (hv.symm.trans hv')
  have hpayload : op.payload = op'.payload := Option.some.inj (hdict.symm.trans hdict')
  unfold fieldsOf
  rw [hpayload]

section Records

variable {initial : Erp} {calls : List ErpCall} {s : System}

/-- No PUT goes to a record that is not of a write that was carried out. -/
theorem erp_of_no_put (hbooked : Booked calls s.scene) {id : String}
    (h : ∀ p ∈ s.history, id ≠ "cavi-" ++ p.op.writeId) : s.erp initial id = initial id := by
  refine Upsert.Store.puts_of_not_mem ?_
  intro q hq hid
  obtain ⟨p, hp, rfl⟩ := List.mem_map.mp hq
  exact h p hp (hid.symm.trans (hbooked.history p hp).recordId_eq)

theorem erp_of_put (hids : (calls.map fun call => call.env.coordinator.newId).Nodup)
    (hbooked : Booked calls s.scene) {p : Put} (hp : p ∈ s.history)
    (hnone : initial ("cavi-" ++ p.op.writeId) = none) :
    s.erp initial ("cavi-" ++ p.op.writeId) = some (fieldsOf p.op) := by
  have hposting := hbooked.history p hp
  refine Upsert.Store.puts_of_same hnone ?_ ?_
  · intro q hq hid
    obtain ⟨p', hp', rfl⟩ := List.mem_map.mp hq
    have hposting' := hbooked.history p' hp'
    have hwriteId : p'.op.writeId = p.op.writeId :=
      cavi_injective (hposting'.recordId_eq.symm.trans hid)
    exact hposting'.fields_eq hids hposting hwriteId
  · exact ⟨_, List.mem_map_of_mem hp, hposting.recordId_eq⟩

end Records

/-- **Creates are posted once.** In every run of creates with ids that do not repeat and whose keys the
ERP does not have yet, under any interleaving of proposals, reversals, decisions and replays, and whatever
Vault and NetSuite answer: the records that the run adds are those of the writes that were carried out,
one for each and with just its payload, and every completed write has its record. -/
theorem creates_posted_once (cfg : Config) (client : NetSuiteClient) (initial : Erp)
    (calls : List ErpCall) (hids : (calls.map fun call => call.env.coordinator.newId).Nodup)
    (hfresh : ∀ call ∈ calls, initial ("cavi-" ++ call.env.coordinator.newId) = none)
    (hcreate : ∀ call ∈ calls, CreateOnly call.event) : PostedOnce cfg client initial calls := by
  have hbooked := run_booked cfg client calls hcreate
  have hnone : ∀ p ∈ (System.run cfg client calls).history,
      initial ("cavi-" ++ p.op.writeId) = none := by
    intro p hp
    obtain ⟨call, hcall, hproposed⟩ := (hbooked.history p hp).proposed
    rw [← hproposed.id]
    exact hfresh call hcall
  have hrecord : ∀ p ∈ (System.run cfg client calls).history,
      (System.run cfg client calls).erp initial ("cavi-" ++ p.op.writeId) = some (fieldsOf p.op) :=
    fun p hp => erp_of_put hids hbooked hp (hnone p hp)
  refine ⟨?_, ?_, ?_, ?_⟩
  · intro id hid
    constructor
    · intro hadded
      by_contra hno
      refine hadded ((erp_of_no_put hbooked ?_).trans hid)
      intro p hp heq
      exact hno ⟨p, hp, heq⟩
    · rintro ⟨p, hp, rfl⟩
      rw [hrecord p hp]
      exact Option.some_ne_none _
  · intro p hp
    exact ⟨hnone p hp, hrecord p hp, (hbooked.history p hp).proposed⟩
  · intro id hid
    refine erp_of_no_put hbooked ?_
    intro p hp heq
    rw [heq] at hid
    exact hid (hnone p hp)
  · intro writeId op hop
    obtain ⟨p, hp, -, hid, hpop⟩ := run_completedPut cfg client calls writeId op hop
    have hput := hrecord p hp
    rw [hid, hpop] at hput
    exact hput

/-! ## An order that is posted twice, and its reversal -/

def orderReversal (writeId : String) : Event where
  subject := "forge.write.reverse"
  schemaVersion := .int 1
  source := "console"
  id := "00000000-0000-0000-0000-00000000000d"
  payload := .obj
    [("write_id", .str writeId), ("operation", "create"), ("payload", .obj [("total", .int (-10))]),
      ("requested_by", "ana")]

theorem orderProposal_createOnly (total : Int) : CreateOnly (orderProposal total) := by
  refine ⟨?_, ?_⟩
  · intro _ v hv
    exact (Except.ok.inj hv).symm
  · intro _ v hv
    cases hv

theorem orderReversal_createOnly (writeId : String) : CreateOnly (orderReversal writeId) := by
  refine ⟨?_, ?_⟩
  · intro _ v hv
    exact (Except.ok.inj hv).symm
  · intro hsub
    simp [orderReversal] at hsub

theorem approval_createOnly (writeId : String) : CreateOnly (approval writeId) := by
  refine ⟨?_, ?_⟩
  · rintro (hsub | hsub) <;> simp [approval] at hsub
  · intro hsub
    simp [approval] at hsub

/-- The order is carried out with its response lost, retried, and then reversed. -/
def reversedRun : List ErpCall :=
  [⟨answered, orderEnv "0" "w-1" fun _ => .error "", orderProposal 10⟩,
    ⟨lost, orderEnv "1" "w-2" fun _ => .error "", approval "w-1"⟩,
    ⟨answered, orderEnv "2" "w-3" fun _ => .error "", approval "w-1"⟩,
    ⟨answered, orderEnv "3" "w-4" fun _ => .error "", orderReversal "w-1"⟩,
    ⟨answered, orderEnv "4" "w-5" fun _ => .error "", approval "w-4"⟩]

/-- The hypotheses of `creates_posted_once` hold for the run, in which NetSuite carries the order out
twice. -/
theorem creates_posted_once_reversedRun :
    (System.run orderConfig exampleClient reversedRun).history.map
        (fun p => (p.op.writeId, p.returned)) = [("w-1", false), ("w-1", true), ("w-4", true)] ∧
      PostedOnce orderConfig exampleClient (fun _ => none) reversedRun := by
  refine ⟨by decide +kernel, creates_posted_once orderConfig exampleClient (fun _ => none) reversedRun
    (by decide) (fun _ _ => rfl) ?_⟩
  intro call hcall
  simp only [reversedRun, List.mem_cons, List.not_mem_nil, or_false] at hcall
  rcases hcall with rfl | rfl | rfl | rfl | rfl
  · exact orderProposal_createOnly 10
  · exact approval_createOnly _
  · exact approval_createOnly _
  · exact orderReversal_createOnly _
  · exact approval_createOnly _

end ForgeWriteAgent

end CaviErp
