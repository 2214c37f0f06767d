import GateBench.Display.Terminal
import GateBench.Proofs.FrameCodec
import GateBench.Proofs.TextLines

/-!
Frames and notices on lines.  Each fills a line of its own, whatever its texts hold, and the line
decodes to nothing else; so a sequence of them comes back from the text in which it was written.
-/

namespace GateBench

open Json Message

namespace Display

/-! ### Notices -/

/-- The numbers of a notice have sixty-four bits. -/
def Notice.InRange : Notice → Prop
  | .update buckets => ∀ bucket ∈ buckets, bucket.2 < UInt64.size
  | .circuit result => ∀ diagram ∈ result.diagram?, diagram.InRange
  | .error _ _ => True

/-- Decode the line of a notice.  Unlike the line of a frame it is not trimmed. -/
def Notice.ofLine? (line : String) : Option Notice :=
  Json.read? line >>= Notice.decode .outermost

theorem carries_bucket {bucket : String × Nat} (hcount : bucket.2 < UInt64.size) :
    Carries decodeBucket (bucketToJson bucket) bucket := by
  constructor
  · simpa [bucketToJson] using hcount
  · intro place _
    have hlabel := (carries_text bucket.1).decodes place (Nat.zero_le _)
    have hcount := (carries_word hcount).decodes place (Nat.zero_le _)
    simp only [bucketToJson, decodeBucket, hlabel, hcount, Option.bind_eq_bind, Option.bind_some,
      Option.pure_def]

/-- A circuit result is carried by the members of its title, its subtitle and its outcome. -/
theorem CircuitResult.carries {result : CircuitResult}
    (hrange : ∀ diagram ∈ result.diagram?, diagram.InRange) :
    Carries CircuitResult.decode (.ofMembers result.members) result := by
  obtain ⟨title, subtitle, outcome⟩ := result
  cases outcome with
  | circuit diagram =>
      have hdiagram := Diagram.carries (hrange diagram rfl)
      constructor
      · simpa [CircuitResult.members] using hdiagram.plain
      · intro place hlevels
        simp only [CircuitResult.members, depth_ofMembers_le_iff, membersWithin_cons,
          membersWithin_nil, and_true] at hlevels
        have hdecoded := hdiagram.decodes place.inner hlevels.2.2.2
        simp [CircuitResult.members, CircuitResult.decode, ofMembers, takeFields, knownMembers,
          Fields.required, decodeText, decodeOutcome, ofString, hlevels.1, hdecoded]
  | error message =>
      constructor
      · simp [CircuitResult.members]
      · intro place hlevels
        have hpositive := (depth_ofMembers_le_iff.mp hlevels).1
        simp [CircuitResult.members, CircuitResult.decode, ofMembers, takeFields, knownMembers,
          Fields.required, decodeText, decodeOutcome, ofString, hpositive]

theorem Notice.carries {notice : Notice} (hrange : notice.InRange) :
    Carries Notice.decode notice.toJson notice := by
  cases notice with
  | update buckets =>
      change Carries _ (.ofMembers (("command", ofString "update") ::
        [("buckets", .array (buckets.map bucketToJson))])) _
      have hbuckets := carries_list fun bucket hmem => carries_bucket (hrange bucket hmem)
      refine carries_variant rfl (by decide) (List.Sublist.refl _) ?_ fun place hlevels => ?_
      · exact plainMembers_cons.mpr ⟨hbuckets.plain, plainMembers_nil⟩
      have hbuckets := required_eq "buckets" hlevels (by simp) hbuckets
      simp only [hbuckets, Option.bind_eq_bind, Option.bind_some, Option.pure_def]
  | circuit result =>
      have hresult := CircuitResult.carries hrange
      have htag : "command" ∉ result.members.map Prod.fst := by
        obtain ⟨title, subtitle, outcome⟩ := result
        cases outcome <;> simp [CircuitResult.members]
      apply carries_tagged rfl htag
      constructor
      · exact hresult.plain
      · intro place hlevels
        simp only [hresult.decodes place hlevels, Option.bind_eq_bind, Option.bind_some,
          Option.pure_def]
  | error title message =>
      change Carries _ (.ofMembers (("command", ofString "error") ::
        [("title", ofString title), ("message", ofString message)])) _
      refine carries_variant rfl (by decide) (List.Sublist.refl _) (by simp) fun place hlevels => ?_
      have htitle := required_eq "title" hlevels (by simp) (carries_text title)
      have hmessage := required_eq "message" hlevels (by simp) (carries_text message)
      simp only [htitle, hmessage, Option.bind_eq_bind, Option.bind_some, Option.pure_def]

/-- A notice comes back from its line when it nests fewer than 128 levels. -/
theorem Notice.ofLine?_line {notice : Notice} (hrange : notice.InRange)
    (hdepth : notice.toJson.depth < 128) : Notice.ofLine? notice.line = some notice := by
  have hcarries := Notice.carries hrange
  rw [Notice.ofLine?, Notice.line, read?_compact hcarries.plain]
  exact hcarries.decodes .outermost (Nat.le_of_lt_succ hdepth)

end Display

/-! ### Sequences -/

open Display (Notice linesText)

variable {α β : Type} {line : α → String} {read : String → β} {value : α → β}

/-- Reading line by line gives back what was written line by line. -/
theorem read_linesText {items : List α}
    (hitems : ∀ item ∈ items, Text.IsOneLine (line item) ∧ read (line item) = value item) :
    (Text.linesOf (linesText (items.map line))).map read = items.map value := by
  have hlines : ∀ written ∈ items.map line, Text.IsOneLine written := by
    intro written hwritten
    obtain ⟨item, hitem, rfl⟩ := List.mem_map.mp hwritten
    exact (hitems item hitem).1
  rw [linesText, Text.linesOf_unlines hlines, List.map_map]
  apply List.map_congr_left
  intro item hitem
  exact (hitems item hitem).2

/-- Framing loses nothing: a sequence of requests, of events and replies, or of notices is what is
read from the lines it was written on.  What holds a circuit has to nest fewer than 128 levels;
requests never nest as deep. -/
theorem framing_lossless [JsonWording] :
    (∀ frames : List Inbound, (∀ frame ∈ frames, frame.InRange) →
      (Text.linesOf (linesText (frames.map Inbound.line))).map (decodeLine Inbound.decode) =
        frames.map .ok) ∧
    (∀ frames : List Outbound, (∀ frame ∈ frames, frame.InRange ∧ frame.toJson.depth < 128) →
      (Text.linesOf (linesText (frames.map Outbound.line))).map (decodeLine Outbound.decode) =
        frames.map .ok) ∧
    (∀ notices : List Notice, (∀ notice ∈ notices, notice.InRange ∧ notice.toJson.depth < 128) →
      (Text.linesOf (linesText (notices.map Notice.line))).map Notice.ofLine? =
        notices.map some) := by
  refine ⟨?_, ?_, ?_⟩
  · intro frames hframes
    apply read_linesText
    intro frame hframe
    have hrange := hframes frame hframe
    exact ⟨not_lineBreak_of_mem_compact (Inbound.carries hrange).plain,
      Inbound.decodeLine_line hrange⟩
  · intro frames hframes
    apply read_linesText
    intro frame hframe
    obtain ⟨hrange, hdepth⟩ := hframes frame hframe
    have hdecoded := Outbound.decodeLine_line hrange
    rw [if_pos hdepth] at hdecoded
    exact ⟨not_lineBreak_of_mem_compact (Outbound.carries hrange).plain, hdecoded⟩
  · intro notices hnotices
    apply read_linesText
    intro notice hnotice
    obtain ⟨hrange, hdepth⟩ := hnotices notice hnotice
    exact ⟨not_lineBreak_of_mem_compact (Notice.carries hrange).plain,
      Notice.ofLine?_line hrange hdepth⟩

/-- A request whose texts hold line breaks and a control character. -/
def brokenRequest : Inbound :=
  ⟨UInt64.size - 1, .run [⟨"a\r\n", "\n\x00"⟩] (some "\r") (UInt32.size - 1) .base⟩

/-- A reply with a box in a box. -/
def nestedReply : Outbound :=
  .reply (UInt64.size - 1) (.circuit ⟨[⟨0, UInt64.size - 1⟩],
    [{ Box.plain "a\nb" [.ofQubit 0] with children := [.plain "\r\n" [.ofResult 0 1]] }]⟩)

/-- A notice with a label that is nothing but a line break. -/
def brokenNotice : Notice :=
  .update [("\r\n", UInt64.size - 1), ("1", 0)]

/-- No line is refused here, so any words will do. -/
local instance anyWording : JsonWording :=
  .always ""

theorem framing_lossless_broken :
    brokenRequest.InRange ∧ nestedReply.InRange ∧ nestedReply.toJson.depth < 128 ∧
      brokenNotice.InRange ∧ brokenNotice.toJson.depth < 128 ∧
      (Text.linesOf (linesText ([brokenRequest, brokenRequest].map Inbound.line))).map
        (decodeLine Inbound.decode) = [.ok brokenRequest, .ok brokenRequest] ∧
      (Text.linesOf (linesText ([nestedReply].map Outbound.line))).map
        (decodeLine Outbound.decode) = [.ok nestedReply] ∧
      (Text.linesOf (linesText ([brokenNotice].map Notice.line))).map Notice.ofLine? =
        [some brokenNotice] := by
  have hrequest : brokenRequest.InRange :=
    ⟨by decide, show UInt32.size - 1 < UInt32.size by decide⟩
  have hreply : nestedReply.InRange := by
    refine ⟨by decide, ?_, ?_⟩
    · simp [Wire.InRange, UInt64.size]
    · simp [Box.plain, Box.InRange, Box.AllInRange, Register.ofQubit, Register.ofResult,
        Register.InRange, UInt64.size]
  have hreplyDepth : nestedReply.toJson.depth < 128 := by decide
  have hnotice : brokenNotice.InRange := by
    simp [brokenNotice, Notice.InRange, UInt64.size]
  have hnoticeDepth : brokenNotice.toJson.depth < 128 := by decide
  refine ⟨hrequest, hreply, hreplyDepth, hnotice, hnoticeDepth, ?_, ?_, ?_⟩
  · apply framing_lossless.1
    simpa using hrequest
  · apply framing_lossless.2.1
    simpa using ⟨hreply, hreplyDepth⟩
  · apply framing_lossless.2.2
    simpa using ⟨hnotice, hnoticeDepth⟩

end GateBench
