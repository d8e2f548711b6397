import GhostText.Client.Dispatch
import GhostText.Proofs.Wire.Messages

/-!
# Receiving a message

A message that arrives as one whole frame, with nothing before it, is dispatched as it was sent.
-/

namespace GhostText

/-- One whole frame completes its message and leaves the reader fresh. -/
theorem Frame.feed_encode {m : Message} (h : m.isWellFormed)
    (hf : Frame.Fits (Frame.bodyOf m.toJson)) :
    Frame.Reader.fresh.feed (Frame.encode m.toJson) = ⟨[.value m.toJson], [], .fresh⟩ := by
  have hdrain := Frame.drain_ofBody hf []
  have hend : Frame.drain [] none = ⟨[], [], .fresh⟩ := Frame.drain_waiting rfl
  rw [List.append_nil, Frame.Body.ofBytes_bodyOf (Message.isPlain_toJson h), hend] at hdrain
  exact hdrain

/-- A message in one whole frame is handled as it was sent. -/
theorem World.receive_encode {m : Message} (h : m.isWellFormed)
    (hf : Frame.Fits (Frame.bodyOf m.toJson)) {w : World} (hw : w.client.reader = .fresh)
    (run : Runner) : receive run (Frame.encode m.toJson) w = handleMessage run m.toJson w m := by
  have hreader : (w.updateClient fun c => { c with reader := .fresh }) = w := by
    simp only [updateClient, ← hw]
  simp only [receive, hw, Frame.feed_encode h hf, List.foldl_nil, List.foldl_cons, hreader,
    dispatch, Message.classify_toJson h]

end GhostText
