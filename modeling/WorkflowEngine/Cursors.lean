import WorkflowEngine.Lib.Base64
import WorkflowEngine.Triggers

/-!
# Pagination cursors

A cursor is the time and the id of the last row of a page, as text in base64.
`encode_cursor` of `src/api/workflow_models.py` and `encode_execution_cursor` of
`src/api/execution_models.py` are the same function, and so are the two that
decode a cursor.

`fromisoformat` is a parameter.  It accepts many formats, and the routes rely on
nothing but that it reads back what `isoformat` wrote.
-/

namespace WorkflowEngine

open Py

/-! ## The text of a time -/

theorem toList_pushn (s : String) (c : Char) (n : Nat) :
    (s.pushn c n).toList = s.toList ++ List.replicate n c := by
  induction n with
  | zero => simp [String.pushn, Nat.repeat]
  | succ n ih =>
    show (Nat.repeat (fun t : String => t.push c) (n + 1) s).toList = _
    have hpush : (s.pushn c n).toList = (Nat.repeat (fun t : String => t.push c) n s).toList := rfl
    rw [Nat.repeat, String.toList_push, ← hpush, ih, List.replicate_succ', List.append_assoc]

theorem not_mem_padded (width n : Nat) : '|' ∉ (padded width n).toList := by
  rw [padded, String.toList_append, toList_pushn]
  intro h
  rcases List.mem_append.mp h with hzeros | hdigits
  · simp at hzeros
  · have hdigit : '|' ∈ Nat.toDigits 10 n := by
      rw [← Nat.toList_repr]
      exact hdigits
    exact absurd (Nat.isDigit_of_mem_toDigits (by decide) (by decide) hdigit) (by decide)

/-- The text of a time has no `|` in it. -/
theorem not_mem_isoformat (time : Time) : '|' ∉ (isoformat time).toList := by
  have hfraction : ∀ m, '|' ∉ (if m = 0 then "" else "." ++ padded 6 m).toList := by
    intro m
    split
    · simp
    · simp [not_mem_padded]
  simp [isoformat, not_mem_padded, hfraction]

/-! ## Cursors -/

/-- `encode_cursor`. -/
def encodeCursor (createdAt : Time) (id : Uuid) : String :=
  let raw := isoformat createdAt ++ "|" ++ Uuid.toText id
  String.ofList (Base64.encode raw.toUTF8.data.toList)

/-- `encode_execution_cursor`. -/
def encodeExecutionCursor (createdAt : Time) (id : Uuid) : String := encodeCursor createdAt id

section

variable (fromisoformat : String → Option Time)

/-- The `try` block of `decode_cursor`; `none` is any exception.  The bytes of a
character that is not ASCII are not in the alphabet of base64 either. -/
def readCursor (cursor : String) : Option (Time × Uuid) := do
  let bytes ← Base64.decode cursor.toList
  let raw ← String.fromUTF8? ⟨bytes.toArray⟩
  match raw.toList.dropWhile (· ≠ '|') with
  | [] => none
  | _ :: rest =>
    let createdAt ← fromisoformat (String.ofList (raw.toList.takeWhile (· ≠ '|')))
    let id ← Uuid.parse (String.ofList rest)
    return (createdAt, id)

/-- The error of `decode_cursor`. -/
def invalidCursor : AppError where
  code := .invalidCursor
  message := "Invalid pagination cursor."
  statusCode := 400

/-- `decode_cursor`. -/
def decodeCursor (cursor : String) : Except PyError (Time × Uuid) :=
  match readCursor fromisoformat cursor with
  | some decoded => .ok decoded
  | none => .error (.app invalidCursor)

/-- `decode_execution_cursor`. -/
def decodeExecutionCursor (cursor : String) : Except PyError (Time × Uuid) :=
  decodeCursor fromisoformat cursor

variable {fromisoformat} {createdAt : Time} {id : Uuid}

/-- A cursor can be decoded, if the time survives `isoformat`. -/
theorem decodeCursor_encodeCursor (htime : fromisoformat (isoformat createdAt) = some createdAt)
    (hid : id < 16 ^ 32) : decodeCursor fromisoformat (encodeCursor createdAt id) =
      .ok (createdAt, id) := by
  have hraw : (isoformat createdAt ++ "|" ++ Uuid.toText id).toList =
      (isoformat createdAt).toList ++ '|' :: (Uuid.toText id).toList := by
    simp
  have hbefore : ∀ c ∈ (isoformat createdAt).toList, decide (c ≠ '|') = true := by
    intro c hc
    exact decide_eq_true fun heq => not_mem_isoformat createdAt (heq ▸ hc)
  have hutf8 : String.fromUTF8? (isoformat createdAt ++ "|" ++ Uuid.toText id).toUTF8 =
      some (isoformat createdAt ++ "|" ++ Uuid.toText id) :=
    dif_pos (String.isValidUTF8 _)
  have hread : readCursor fromisoformat (encodeCursor createdAt id) = some (createdAt, id) := by
    rw [readCursor, encodeCursor, String.toList_ofList, Base64.decode_encode, Option.bind_eq_bind,
      Option.bind_some, Array.toArray_toList, hutf8, Option.bind_eq_bind, Option.bind_some, hraw,
      List.dropWhile_append_of_pos hbefore, List.takeWhile_append_of_pos hbefore]
    simp [List.dropWhile, List.takeWhile, htime, Uuid.parse_toText hid]
  rw [decodeCursor, hread]

end

/-- A cursor is not the empty text, which the routes take for none. -/
theorem encodeCursor_ne_empty (createdAt : Time) (id : Uuid) : encodeCursor createdAt id ≠ "" := by
  intro h
  have hlist := congrArg String.toList h
  rw [encodeCursor, String.toList_ofList] at hlist
  refine Base64.encode_ne_nil ?_ hlist
  intro hnil
  have hsize := congrArg List.length hnil
  have hutf8 : (isoformat createdAt ++ "|" ++ Uuid.toText id).toUTF8.data.toList.length =
      (isoformat createdAt ++ "|" ++ Uuid.toText id).utf8ByteSize := rfl
  rw [hutf8] at hsize
  simp at hsize

end WorkflowEngine
