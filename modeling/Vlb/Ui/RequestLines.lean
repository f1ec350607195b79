import Vlb.Ui.Delivery

/-!
# Requests on the wire

The client writes a request field by field. The daemon reads it with what is derived from the type of
requests: the operation under `op`, and the fields of that operation, some of which have a default. An
array of the operation and of its fields is a request as well.

* The instance of `Serde`: how a request is written, and how it is read.
* `requestLine`: the line that `send` writes.
* `handle`: what the daemon makes of a connection.
* **`handle_requestLine`**: a request whose line fits is answered as what it is.
-/

namespace Vlb.Control

open Json Serde Text Time

/-! ## Writing and reading -/

/-- A request of this operation. -/
def operation (op : String) (fields : List (String × Json)) : Json :=
  .obj (("op", serialize op) :: fields)

def defaultLimit : UInt32 := 120

def defaultEventsLimit : UInt32 := 20

def defaultWindowHours : UInt32 := 24

instance : Serde Request where
  serialize
    | .status => operation "status" []
    | .system limit => operation "system" [("limit", serialize limit)]
    | .force provider => operation "force" [("provider", serialize provider)]
    | .auto => operation "auto" []
    | .traffic provider limit =>
      operation "traffic" [("provider", serialize provider), ("limit", serialize limit)]
    | .events limit => operation "events" [("limit", serialize limit)]
    | .clients hours => operation "clients" [("hours", serialize hours)]
    | .clientDetail ip hours limit => operation "clientdetail" [("ip", serialize ip),
        ("hours", serialize hours), ("limit", serialize limit)]
  deserialize j := do
    let (op, content) ← variant "op" j
    match op with
    | "status" => do
      let _ ← content.named []
      return .status
    | "force" => do
      let fields ← content.named ["provider"]
      return .force (← required fields "provider")
    | "auto" => do
      let _ ← content.named []
      return .auto
    | "traffic" => do
      let fields ← content.named ["provider", "limit"]
      return .traffic (← required fields "provider") (← defaulted defaultLimit fields "limit")
    | "system" => do
      let fields ← content.named ["limit"]
      return .system (← defaulted defaultLimit fields "limit")
    | "events" => do
      let fields ← content.named ["limit"]
      return .events (← defaulted defaultEventsLimit fields "limit")
    | "clients" => do
      let fields ← content.named ["hours"]
      return .clients (← defaulted defaultWindowHours fields "hours")
    | "clientdetail" => do
      let fields ← content.named ["ip", "hours", "limit"]
      return .clientDetail (← required fields "ip") (← defaulted defaultWindowHours fields "hours")
        (← defaulted defaultLimit fields "limit")
    | _ => none
  deserialize_null := rfl
  Faithful _ := True
  deserialize_serialize_iff r := by
    cases r <;> simp [operation, variant, Content.named, single]

/-- **Every request is read as it was written.** -/
instance : Exact Request := ⟨fun _ => trivial⟩

/-- The fields may be left out from the last one on, where they have a default. -/
example : (deserialize (.arr [.str "traffic", .str "wan"]) : Option Request) =
    some (.traffic "wan" 120) := by decide

/-! ## The connection -/

/-- The line that `send` writes. -/
def requestLine (r : Request) : List UInt8 := utf8 (print (serialize r) ++ ['\n'])

/-- The request that a line is read as. -/
def readRequest (line : List Char) : Option Request := (parse (trim line)).bind deserialize

section Handle

variable [Floats] [Chrono]

/-- What the daemon writes to a connection that sends this; nothing, where nothing arrives or it is
no text. `explain` is the text of the error. -/
def handle (explain : List Char → String) (d : Daemon) (stream : List UInt8) : List UInt8 :=
  match fromUtf8 (readLine maxRequestBytes stream) with
  | none | some [] => []
  | some line =>
    answerLine <| match readRequest line with
      | some req => dispatch d req
      | none => .error ("invalid request: " ++ explain line)

end Handle

/-! ## What is understood -/

theorem serialize_request (r : Request) : ∃ fields, serialize r = .obj fields := by
  cases r <;> exact ⟨_, rfl⟩

theorem readRequest_print (r : Request) :
    readRequest (print (serialize r)) = some r ∧
      readRequest (print (serialize r) ++ ['\n']) = some r := by
  obtain ⟨fields, hobj⟩ := serialize_request r
  have hread : (parse (print (serialize r))).bind deserialize = some r := by
    rw [parse_print, Option.bind_some, deserialize_serialize]
  rw [readRequest, readRequest, hobj, trim_print_obj, trim_obj, ← hobj]
  exact ⟨hread, hread⟩

theorem exists_line {r : Request} (hfits : (utf8 (print (serialize r))).length ≤ maxRequestBytes) :
    ∃ line, fromUtf8 (readLine maxRequestBytes (requestLine r)) = some line ∧ line ≠ [] ∧
      readRequest line = some r := by
  obtain ⟨hbare, hline⟩ := readRequest_print r
  have hne : print (serialize r) ≠ [] := by
    obtain ⟨fields, hobj⟩ := serialize_request r
    rw [hobj, print]
    exact List.cons_ne_nil _ _
  rw [requestLine]
  obtain h | h := readLine_of_le (lineFeed_not_mem_print (serialize r)) hfits
  · exact ⟨_, by rw [h, fromUtf8_utf8], hne, hbare⟩
  · exact ⟨_, by rw [h, fromUtf8_utf8], List.append_ne_nil_of_left_ne_nil hne _, hline⟩

/-- **A request whose line fits is answered as what it is.** -/
theorem handle_requestLine [Floats] [Chrono] (explain : List Char → String) (d : Daemon)
    (r : Request) (hfits : (utf8 (print (serialize r))).length ≤ maxRequestBytes) :
    (fromUtf8 (readLine maxRequestBytes (requestLine r))).bind readRequest = some r ∧
      handle explain d (requestLine r) = answerLine (dispatch d r) := by
  obtain ⟨line, hline, hne, hread⟩ := exists_line hfits
  obtain ⟨c, cs, rfl⟩ := List.exists_cons_of_ne_nil hne
  refine ⟨by rw [hline, Option.bind_some, hread], ?_⟩
  simp only [handle, hline, hread]

theorem handle_requestLine_force :
    (fromUtf8 (readLine maxRequestBytes (requestLine (.force "isp-main")))).bind readRequest =
      some (.force "isp-main") :=
  (@handle_requestLine intervals epochs (fun _ => "") longHistory (.force "isp-main")
    (by decide)).1

end Vlb.Control
