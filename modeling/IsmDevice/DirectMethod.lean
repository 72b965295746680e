import IsmDevice.Firmware

/-!
# The direct method

The IoT Hub client calls `DeviceMethodCallback` for every direct method, with the
name and the bytes that come from the hub.  For `firmwareUpdate` it reads three
strings of the payload, fills the response and starts a thread; for every other
method it answers 404.  The status that it returns depends on the allocation of the
response, and the start of the thread does not.

Nothing is caught here.  An exception goes on into the client, which is a C
library, and ends the process.  The parser takes a NUL for the end of the text, so
that an update is started whatever stands behind one.
-/

namespace IsmDevice

open Transition

/-- The value the callback returns, what it leaves in `*response` (where the
    allocation has worked) and `*resp_size`, and the updates it has started. -/
structure MethodReply where
  status : Int
  response : Option Text
  respSize : Nat
  updates : List UpdateRequest

def FIRMWARE_UPDATE_RESPONSE : Text :=
  "\x7b \"Response\": \"Initiating Firmware Update\" \x7d".toList

def UNKNOWN_FUNCTION_RESPONSE : Text := "\x7b \"Response\": \"Unknown function called\" \x7d".toList

/-- The size, `malloc` and `memcpy` of a response. -/
def respond (responseString : Text) (status : Int) (mallocOk : Bool)
    (updates : List UpdateRequest) : MethodReply where
  status := if mallocOk then status else -1
  response := if mallocOk then some (responseString.take responseString.length) else none
  respSize := responseString.length
  updates := updates

/-- The three strings that are read from the payload; `none` is the exception. -/
def fwData (lib : JsonLibrary) (payload : Text) : Option UpdateRequest := do
  let fw_data ← lib.parse payload
  let blob ← fw_data.stringAt "blobUrl"
  let fileName ← fw_data.stringAt "fileName"
  let version ← fw_data.stringAt "version"
  some ⟨blob, fileName, version⟩

/-- `DeviceMethodCallback`; `none` where an exception leaves it. -/
def deviceMethodCallback (lib : JsonLibrary) (method : String) (payload : Text)
    (mallocOk : Bool) : Option MethodReply :=
  if method = "firmwareUpdate" then
    (fwData lib payload).map fun request =>
      respond FIRMWARE_UPDATE_RESPONSE 200 mallocOk [request]
  else some (respond UNKNOWN_FUNCTION_RESPONSE 404 mallocOk [])

/-- The payload is a JSON object with the three strings of this request. -/
def Requests (lib : JsonLibrary) (payload : Text) (request : UpdateRequest) : Prop :=
  ∃ members, JsonText lib payload (.object members) ∧
    members.lookup "blobUrl" = some (.string request.blobUrl) ∧
    members.lookup "fileName" = some (.string request.fileName) ∧
    members.lookup "version" = some (.string request.version)

def responseText (method : String) : Text :=
  if method = "firmwareUpdate" then FIRMWARE_UPDATE_RESPONSE else UNKNOWN_FUNCTION_RESPONSE

/-- The reply starts one update, that of the request, exactly if it reports 200 for
    a call that asks for it; otherwise it starts none and reports something else. -/
structure MethodReply.Honest (lib : JsonLibrary) (method : String) (payload : Text)
    (reply : MethodReply) : Prop where
  started : ∀ request, reply.updates = [request] ↔
    method = "firmwareUpdate" ∧ Requests lib payload request ∧ reply.status = 200
  refused : (¬ ∃ request, method = "firmwareUpdate" ∧ Requests lib payload request ∧
    reply.status = 200) → reply.updates = [] ∧ reply.status ≠ 200
  response : ∀ text, reply.response = some text →
    text = responseText method ∧ reply.respSize = (responseText method).length

/-- The callback returns, with an honest reply. -/
def TotalAndHonest (lib : JsonLibrary) (method : String) (payload : Text) (mallocOk : Bool) :
    Prop :=
  ∃ reply, deviceMethodCallback lib method payload mallocOk = some reply ∧
    reply.Honest lib method payload

/-! ### The payload -/

theorem fwData_eq_some_iff {lib : JsonLibrary} {payload : Text} {request : UpdateRequest} :
    fwData lib payload = some request ↔
      ∃ members, lib.parse payload = some (.object members) ∧
        members.lookup "blobUrl" = some (.string request.blobUrl) ∧
        members.lookup "fileName" = some (.string request.fileName) ∧
        members.lookup "version" = some (.string request.version) := by
  constructor
  · intro h
    obtain ⟨values, hparse, h⟩ := Option.bind_eq_some_iff.mp h
    obtain ⟨blob, hblob, h⟩ := Option.bind_eq_some_iff.mp h
    obtain ⟨fileName, hfileName, h⟩ := Option.bind_eq_some_iff.mp h
    obtain ⟨version, hversion, h⟩ := Option.bind_eq_some_iff.mp h
    obtain rfl := Option.some.inj h
    obtain ⟨members, rfl⟩ := Json.exists_object_of_stringAt hblob
    exact ⟨members, hparse, Json.stringAt_object_iff.mp hblob,
      Json.stringAt_object_iff.mp hfileName, Json.stringAt_object_iff.mp hversion⟩
  · rintro ⟨members, hparse, hblob, hfileName, hversion⟩
    rw [← Json.stringAt_object_iff] at hblob hfileName hversion
    simp only [fwData, hparse, hblob, hfileName, hversion, Option.bind_eq_bind, Option.bind_some]

/-- What a payload requests is what is read from it, where it has no NUL. -/
theorem requests_iff {lib : JsonLibrary} {payload : Text} {request : UpdateRequest} :
    Requests lib payload request ↔ '\x00' ∉ payload ∧ fwData lib payload = some request := by
  rw [fwData_eq_some_iff]
  constructor
  · rintro ⟨members, ⟨hnul, hparse⟩, hstrings⟩
    exact ⟨hnul, members, hparse, hstrings⟩
  · rintro ⟨hnul, members, hparse, hstrings⟩
    exact ⟨members, ⟨hnul, hparse⟩, hstrings⟩

/-- There is one request in a payload. -/
theorem Requests.eq {lib : JsonLibrary} {payload : Text} {request request' : UpdateRequest}
    (h : Requests lib payload request) (h' : Requests lib payload request') :
    request = request' := by
  have heq := (requests_iff.mp h).2.symm.trans (requests_iff.mp h').2
  exact Option.some.inj heq

/-! ### The reply -/

section Reply

variable {lib : JsonLibrary} {method : String} {payload : Text} {mallocOk : Bool}

theorem deviceMethodCallback_of_ne (h : method ≠ "firmwareUpdate") :
    deviceMethodCallback lib method payload mallocOk =
      some (respond UNKNOWN_FUNCTION_RESPONSE 404 mallocOk []) :=
  if_neg h

theorem deviceMethodCallback_firmwareUpdate :
    deviceMethodCallback lib "firmwareUpdate" payload mallocOk =
      (fwData lib payload).map fun request =>
        respond FIRMWARE_UPDATE_RESPONSE 200 mallocOk [request] :=
  if_pos rfl

/-- What is allocated holds the whole text. -/
theorem response_respond {text responseString : Text} {status : Int}
    {updates : List UpdateRequest}
    (h : (respond responseString status mallocOk updates).response = some text) :
    text = responseString := by
  cases mallocOk with
  | true =>
    rw [← List.take_length (l := responseString)]
    exact (Option.some.inj h).symm
  | false => cases h

theorem honest_unknown (h : method ≠ "firmwareUpdate") :
    (respond UNKNOWN_FUNCTION_RESPONSE 404 mallocOk []).Honest lib method payload where
  started := by
    intro request
    apply iff_of_false
    · exact List.cons_ne_nil _ _ ∘ Eq.symm
    · exact fun hcall => h hcall.1
  refused := by
    intro _
    refine ⟨rfl, ?_⟩
    cases mallocOk <;> decide
  response := by
    intro text htext
    rw [responseText, if_neg h]
    exact ⟨response_respond htext, rfl⟩

theorem honest_firmwareUpdate {request : UpdateRequest} (h : Requests lib payload request) :
    (respond FIRMWARE_UPDATE_RESPONSE 200 true [request]).Honest lib "firmwareUpdate" payload where
  started := by
    intro request'
    constructor
    · intro hupdates
      obtain ⟨rfl, -⟩ := List.cons.inj hupdates
      exact ⟨rfl, h, rfl⟩
    · rintro ⟨-, h', -⟩
      rw [h.eq h']
      rfl
  refused := fun hnone => absurd ⟨request, rfl, h, rfl⟩ hnone
  response := fun _ htext => ⟨response_respond htext, rfl⟩

/-- Without a response the update is started all the same, and the status denies it. -/
theorem not_honest_of_malloc {request : UpdateRequest} :
    ¬ (respond FIRMWARE_UPDATE_RESPONSE 200 false [request]).Honest lib "firmwareUpdate"
      payload := by
  intro h
  have hstatus : (-1 : Int) = 200 := ((h.started request).mp rfl).2.2
  exact absurd hstatus (by decide)

/-- An update is started although the payload is no JSON. -/
theorem not_honest_of_nul {request : UpdateRequest} (hnul : '\x00' ∈ payload) :
    ¬ (respond FIRMWARE_UPDATE_RESPONSE 200 mallocOk [request]).Honest lib "firmwareUpdate"
      payload := by
  intro h
  have hrequest : Requests lib payload request := ((h.started request).mp rfl).2.1
  exact (requests_iff.mp hrequest).1 hnul

end Reply

/-- **When a call is handled honestly**: it is not for a firmware update, or its
    whole payload is an object with the three strings, and the response is allocated. -/
theorem totalAndHonest_iff (lib : JsonLibrary) (method : String) (payload : Text)
    (mallocOk : Bool) :
    TotalAndHonest lib method payload mallocOk ↔
      method ≠ "firmwareUpdate" ∨ (∃ request, Requests lib payload request) ∧ mallocOk = true := by
  by_cases hmethod : method = "firmwareUpdate"
  · subst hmethod
    rw [or_iff_right (not_not.mpr rfl), TotalAndHonest, deviceMethodCallback_firmwareUpdate]
    constructor
    · rintro ⟨reply, hreply, hhonest⟩
      obtain ⟨request, hread, rfl⟩ := Option.map_eq_some_iff.mp hreply
      have hnul : '\x00' ∉ payload := fun h => not_honest_of_nul h hhonest
      cases mallocOk with
      | true => exact ⟨⟨request, requests_iff.mpr ⟨hnul, hread⟩⟩, rfl⟩
      | false => exact absurd hhonest not_honest_of_malloc
    · rintro ⟨⟨request, hrequest⟩, rfl⟩
      rw [(requests_iff.mp hrequest).2]
      exact ⟨_, rfl, honest_firmwareUpdate hrequest⟩
  · apply iff_of_true
    · exact ⟨_, deviceMethodCallback_of_ne hmethod, honest_unknown hmethod⟩
    · exact Or.inl hmethod

/-- A payload that is not JSON. -/
theorem totalAndHonest_notJson :
    ¬ TotalAndHonest (.ofTable []) "firmwareUpdate" "x".toList true := by
  rintro ⟨reply, hreply, -⟩
  cases hreply

/-! ### The calls of the update system -/

/-- What a call does to the updates: the threads that are started, or the end of the
    process where an exception leaves the callback. -/
def callActions : Option MethodReply → List UpdateAction
  | some reply => reply.updates.map .firmwareUpdate
  | none => [.crash]

namespace UpdateSystem

theorem exec_firmwareUpdates {s : UpdateSystem} (hrunning : s.running = true)
    (updates : List UpdateRequest) :
    machine.exec s (updates.map .firmwareUpdate) =
      some { s with
        threads := s.threads ++ updates.map fun request => ⟨request, .download, none⟩ } := by
  induction updates generalizing s with
  | nil => simp
  | cons request rest ih =>
    have hstep : machine.step s (.firmwareUpdate request) =
        some { s with threads := s.threads ++ [⟨request, .download, none⟩] } := if_pos hrunning
    have hrest := ih (s := { s with threads := s.threads ++ [⟨request, .download, none⟩] }) hrunning
    rw [List.map_cons, Machine.exec_cons, hstep, Option.bind_some, hrest, List.append_assoc]
    rfl

/-- **What a call leaves**: a new thread for the request of its payload, no change
    where it is for something else, and no process where it asks for an update
    that the payload does not describe. -/
theorem exec_callActions {s : UpdateSystem} (hrunning : s.running = true) (lib : JsonLibrary)
    (method : String) (payload : Text) (mallocOk : Bool) :
    machine.exec s (callActions (deviceMethodCallback lib method payload mallocOk)) =
      some (if method = "firmwareUpdate" then
        match fwData lib payload with
        | some request => { s with threads := s.threads ++ [⟨request, .download, none⟩] }
        | none => ⟨false, false, s.files, []⟩
      else s) := by
  by_cases hmethod : method = "firmwareUpdate"
  · subst hmethod
    rw [deviceMethodCallback_firmwareUpdate, if_pos rfl]
    cases fwData lib payload with
    | some request => exact exec_firmwareUpdates hrunning [request]
    | none =>
      show (machine.step s .crash).bind _ = _
      rw [show machine.step s .crash = some ⟨false, false, s.files, []⟩ from if_pos hrunning]
      rfl
  · rw [deviceMethodCallback_of_ne hmethod, if_neg hmethod]
    rfl

end UpdateSystem

end IsmDevice
