import Vrata.Lib.Json.Object
import Vrata.Store.Bolt

/-!
# Replicated writes

In a cluster a write goes through the Raft log. The leader encodes it as a command, and the state
machine of every node decodes the command and calls the operation on its own bolt store. Here the
command is followed through both of its JSON encodings and the dispatch on its name: on the leader, a
replicated write does what the operation does on the bolt store (`replicate_refines_run`).
-/

namespace Vrata.Store

open Json (Bytes quote unquote)

/-! ## Commands -/

/-- A log entry. A payload that is not there is empty. -/
structure Command where
  type : String := ""
  id : String := ""
  payload : Bytes := []

/-- The members of the command's object; an empty ID and an empty payload are left out. -/
def Command.toMembers (cmd : Command) (payload : Bytes) : List Json.Member :=
  ("type", quote cmd.type) ::
    ((if cmd.id = "" then [] else [("id", quote cmd.id)]) ++
      if payload = [] then [] else [("payload", payload)])

def Command.marshal (cmd : Command) : Option Bytes :=
  if cmd.payload = [] then some (Json.encodeObject (cmd.toMembers []))
  else (Json.compact cmd.payload).map fun payload => Json.encodeObject (cmd.toMembers payload)

/-- A string field: `null` leaves it as it is. -/
def stringField (old : String) (value : Bytes) : Option String :=
  if value = [0x6E, 0x75, 0x6C, 0x6C] then some old else unquote value

inductive Field where
  | type
  | id
  | payload
deriving DecidableEq

/-- The field of a name; names are compared without regard to case. -/
def Field.ofName (name : String) : Option Field :=
  let folded := name.toList.map Char.toLower
  if folded = "type".toList then some .type
  else if folded = "id".toList then some .id
  else if folded = "payload".toList then some .payload
  else none

/-- A member that is not a field is ignored. -/
def Command.setField (cmd : Command) (m : Json.Member) : Option Command :=
  match Field.ofName m.1 with
  | some .type => (stringField cmd.type m.2).map fun type => { cmd with type }
  | some .id => (stringField cmd.id m.2).map fun id => { cmd with id }
  | some .payload => some { cmd with payload := m.2 }
  | none => some cmd

def Command.unmarshal (data : Bytes) : Option Command :=
  (Json.members data).bind fun ms => ms.foldlM Command.setField {}

/-! ## The state machine -/

section Machine

variable (S : Schema) (cipher : Option Cipher) (nonce : Nonce)

/-- The cases of `ApplyCommand` that save an entity. -/
def applySave (k : Kind) (cmdType : String) (save : S.Entity k → Bolt → Written) (payload : Bytes)
    (s : Bolt) : Written :=
  match S.unmarshal k payload with
  | none => (.error (.wrap ("ApplyCommand " ++ cmdType ++ ": %w") [] .json), s)
  | some v => save v s

def applyCommand (cmdType id : String) (payload : Bytes) (s : Bolt) : Written :=
  match cmdType with
  | "SaveRoute" => applySave S .route cmdType (saveRoute S) payload s
  | "DeleteRoute" => deleteRoute id s
  | "SaveGroup" => applySave S .group cmdType (saveGroup S) payload s
  | "DeleteGroup" => deleteGroup id s
  | "SaveMiddleware" => applySave S .middleware cmdType (saveMiddleware S) payload s
  | "DeleteMiddleware" => deleteMiddleware id s
  | "SaveListener" => applySave S .listener cmdType (saveListener S) payload s
  | "DeleteListener" => deleteListener id s
  | "SaveDestination" => applySave S .destination cmdType (saveDestination S) payload s
  | "DeleteDestination" => deleteDestination id s
  | "SaveSecret" => applySave S .secret cmdType (saveSecret S cipher nonce) payload s
  | "DeleteSecret" => deleteSecret id s
  | "SaveSnapshot" => applySave S .snapshot cmdType (saveSnapshot S cipher nonce) payload s
  | "DeleteSnapshot" => deleteSnapshot id s
  | "ActivateSnapshot" => activateSnapshot id s
  | _ => (.error (.failed "unknown command type: %s" [cmdType]), s)

/-- `FSM.Apply` on the data of a log entry. -/
def fsmApply (data : Bytes) (s : Bolt) : Written :=
  match Command.unmarshal data with
  | none => (.error (.wrap "decoding command: %w" [] .json), s)
  | some cmd =>
    let r := applyCommand S cipher nonce cmd.type cmd.id cmd.payload s
    (wrapping "applying command %s: %w" [cmd.type] r.1, r.2)

/-! ## The leader -/

/-- The write of the Raft store on the leader, where the log entry is committed and applied. A payload
that is there comes with what `json.Marshal` makes of it. -/
def apply (cmdType id : String) (payload : Option (Option Bytes)) (s : Bolt) : Written :=
  match payload with
  | some none => (.error (.wrap "marshalling payload: %w" [] .json), s)
  | payload =>
    match Command.marshal ⟨cmdType, id, payload.join.getD []⟩ with
    | none => (.error (.wrap "marshalling command: %w" [] .json), s)
    | some data => fsmApply S cipher nonce data s

def Op.cmdType : Op S → String
  | .save .route _ => "SaveRoute"
  | .save .group _ => "SaveGroup"
  | .save .middleware _ => "SaveMiddleware"
  | .save .listener _ => "SaveListener"
  | .save .destination _ => "SaveDestination"
  | .save .secret _ => "SaveSecret"
  | .save .snapshot _ => "SaveSnapshot"
  | .delete .route _ => "DeleteRoute"
  | .delete .group _ => "DeleteGroup"
  | .delete .middleware _ => "DeleteMiddleware"
  | .delete .listener _ => "DeleteListener"
  | .delete .destination _ => "DeleteDestination"
  | .delete .secret _ => "DeleteSecret"
  | .delete .snapshot _ => "DeleteSnapshot"
  | .activate _ => "ActivateSnapshot"

/-- The operation of the Raft store. -/
def Op.replicate (op : Op S) : Bolt → Written :=
  match op with
  | .save _ v => apply S cipher nonce op.cmdType (S.id v) (some (S.marshal v))
  | .delete _ id => apply S cipher nonce op.cmdType id none
  | .activate id => apply S cipher nonce op.cmdType id none

end Machine

/-! ## Both encodings -/

section Encodings

theorem stringField_quote (old text : String) : stringField old (quote text) = some text := by
  have hnull : quote text ≠ [0x6E, 0x75, 0x6C, 0x6C] := nofun
  rw [stringField, if_neg hnull, Json.unquote_quote]

/-- The fields are read one after the other, and those that were left out keep their defaults. -/
theorem Command.foldlM_toMembers (cmd : Command) :
    (cmd.toMembers cmd.payload).foldlM Command.setField {} = some cmd := by
  have htype : Field.ofName "type" = some .type := by decide
  have hid : Field.ofName "id" = some .id := by decide
  have hpayload : Field.ofName "payload" = some .payload := by decide
  obtain ⟨type, id, payload⟩ := cmd
  by_cases hi : id = "" <;> by_cases hp : payload = [] <;>
    simp [Command.toMembers, Command.setField, hi, hp, htype, hid, hpayload, stringField_quote]

/-- The entry that the leader writes is read as the command, if the payload is a compact text. -/
theorem Command.unmarshal_marshal (cmd : Command)
    (h : cmd.payload ≠ [] → Json.compact cmd.payload = some cmd.payload) :
    ∃ data, cmd.marshal = some data ∧ Command.unmarshal data = some cmd := by
  have hmarshal : cmd.marshal = some (Json.encodeObject (cmd.toMembers cmd.payload)) := by
    rw [Command.marshal]
    by_cases hp : cmd.payload = []
    · rw [if_pos hp, hp]
    · rw [if_neg hp, h hp, Option.map_some]
  have htight : ∀ m ∈ cmd.toMembers cmd.payload, Json.Tight m.2 := by
    intro m hm
    simp only [Command.toMembers, List.mem_cons, List.mem_append, List.mem_ite_nil_left,
      List.not_mem_nil, or_false] at hm
    obtain rfl | ⟨-, rfl⟩ | ⟨hp, rfl⟩ := hm
    · exact Json.tight_quote _
    · exact Json.tight_quote _
    · exact Json.tight_of_compact (h hp)
  refine ⟨_, hmarshal, ?_⟩
  rw [Command.unmarshal, Json.members_encodeObject htight, Option.bind_some, cmd.foldlM_toMembers]

end Encodings

/-! ## A replicated write -/

section Refinement

variable {S : Schema} {cipher : Option Cipher} {nonce : Nonce} {s : Bolt}

inductive ErrorClass where
  | success
  | notFound
  | other
deriving DecidableEq, Repr

def errorClass : Except StoreError Unit → ErrorClass
  | .ok _ => .success
  | .error e => if e.isNotFound then .notFound else .other

theorem errorClass_wrapping (format : String) (args : List String) (r : Except StoreError Unit) :
    errorClass (wrapping format args r) = errorClass r := by
  cases r <;> rfl

/-- The same store and events, and an error of the same class. -/
def Agree (r r' : Written) : Prop := r.2 = r'.2 ∧ errorClass r.1 = errorClass r'.1

/-- The payload stands for the argument: it is read as the entity that was written. -/
def Op.Representable : Op S → Prop
  | .save k v => ∀ data, S.marshal v = some data → S.unmarshal k data = some v
  | _ => True

theorem agree_apply (cmdType id : String) (payload : Option Bytes)
    (h : ∀ data ∈ payload, Json.compact data = some data) :
    Agree (apply S cipher nonce cmdType id (payload.map some) s)
      (applyCommand S cipher nonce cmdType id (payload.getD []) s) := by
  have hread := Command.unmarshal_marshal ⟨cmdType, id, payload.getD []⟩ fun hp => by
    cases payload with
    | none => exact absurd rfl hp
    | some data => exact h data rfl
  obtain ⟨data, hdata, hcmd⟩ := hread
  have happly : apply S cipher nonce cmdType id (payload.map some) s =
      fsmApply S cipher nonce data s := by
    cases payload <;> simp only [apply, Option.map_none, Option.map_some, Option.join_none,
      Option.join_some, hdata]
  rw [happly, fsmApply, hcmd]
  exact ⟨rfl, errorClass_wrapping _ _ _⟩

/-- The name of a command is that of its operation. -/
theorem applyCommand_save {k : Kind} {v : S.Entity k} {data : Bytes}
    (h : S.unmarshal k data = some v) (id : String) :
    applyCommand S cipher nonce (Op.save k v).cmdType id data s = (Op.save k v).run S cipher nonce s := by
  cases k <;> simp only [Op.cmdType, applyCommand, applySave, h, Op.run]

theorem applyCommand_delete (k : Kind) (id : String) :
    applyCommand S cipher nonce (Op.delete k id : Op S).cmdType id [] s =
      (Op.delete k id : Op S).run S cipher nonce s := by
  cases k <;> rfl

/-- Through the log of the leader, an operation with arguments that JSON can represent does to the
store, to the events and to the class of the error what it does on the bolt store. -/
theorem replicate_refines_run (op : Op S) (hop : op.Representable) (s : Bolt) :
    Agree (op.replicate S cipher nonce s) (op.run S cipher nonce s) := by
  cases op with
  | save k v =>
    cases hdata : S.marshal v with
    | none =>
      obtain ⟨e, hclass, he⟩ := run_save_of_marshal_eq_none hdata cipher nonce s
      rw [he, Op.replicate, hdata]
      refine ⟨rfl, ?_⟩
      rw [errorClass, hclass]
      rfl
    | some data =>
      rw [Op.replicate, hdata, ← applyCommand_save (hop data hdata) (S.id v)]
      exact agree_apply _ _ (some data) (by rintro _ ⟨⟩; exact S.compact_marshal hdata)
  | delete k id =>
    rw [← applyCommand_delete]
    exact agree_apply _ _ none nofun
  | activate id => exact agree_apply _ _ none nofun

theorem replicate_refines_run_saveSecret :
    Agree ((Op.save .secret true : Op sampleSchema).replicate sampleSchema none sampleNonce {})
      ((Op.save .secret true : Op sampleSchema).run sampleSchema none sampleNonce {}) := by
  refine replicate_refines_run _ ?_ _
  rintro _ ⟨⟩
  rfl

end Refinement

end Vrata.Store
