import GateBench.Display.Panel

/-!
Surfaces that write every notice as one line of JSON.
-/

namespace GateBench.Display

/-- Bytes written so far, and how many more there is room for; without a limit there always is.  The
openings listed in `failing` fail, counted from one. -/
structure LineBuffer where
  failing : List Nat := []
  attempts : Nat := 0
  room : Option Nat := none
  written : ByteArray := ByteArray.empty

/-- Write bytes as far as there is room for them. -/
def LineBuffer.write (buffer : LineBuffer) (bytes : ByteArray) :
    Except DisplayError Unit × LineBuffer :=
  match buffer.room with
  | none => (.ok (), { buffer with written := buffer.written ++ bytes })
  | some room =>
    let taken := bytes.extract 0 room
    let result := if room < bytes.size then .error ⟨"out of room"⟩ else .ok ()
    (result, { buffer with room := some (room - bytes.size), written := buffer.written ++ taken })

/-- What was written as text.  A character whose last bytes found no room is replaced. -/
def LineBuffer.text (buffer : LineBuffer) : String :=
  let withoutLast (count : Nat) : Option String :=
    String.fromUTF8? (buffer.written.extract 0 (buffer.written.size - count))
  match withoutLast 0 with
  | some text => text
  | none => ([1, 2, 3].findSome? withoutLast).getD "" ++ "\ufffd"

/-- Surfaces that write to a buffer.  Closing one writes nothing. -/
def jsonLines : SurfaceKind LineBuffer where
  create buffer :=
    let attempts := buffer.attempts + 1
    let result := if attempts ∈ buffer.failing then .error ⟨"no surface"⟩ else .ok ()
    (result, { buffer with attempts })
  post notice buffer := buffer.write (notice.line ++ "\n").toUTF8
  close buffer := buffer

end GateBench.Display
