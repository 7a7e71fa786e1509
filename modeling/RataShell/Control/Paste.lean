import RataShell.Lib.Framing
import RataShell.Control.Messages
import RataShell.Term.Plain

/-!
# Pasted text

What a program that has asked for bracketed paste reads of a text that `SendText`
sends it: the first end marker behind the start ends the paste, also one that is
part of the text.

* `sent_sendText`: what `SendText` sends.
* `paste_framed_iff`: the program reads the text as one paste exactly when it
  has no end marker.
* `paste_escapes`: a text that ends its paste and goes on as typed input.
-/

namespace RataShell.Input

open Term (Alacritty Lawful Plain plain plain_lawful)

variable {T R : Type}

/-- What a program with bracketed paste reads. -/
def received (bytes : List UInt8) : List (Framing.Event UInt8) :=
  Framing.receive (asciiBytes pasteStart) (asciiBytes pasteStop) bytes

theorem ascii_pasteStart : ∀ u ∈ pasteStart, u.toNat < 0x80 := by simp [pasteStart]

theorem ascii_pasteStop : ∀ u ∈ pasteStop, u.toNat < 0x80 := by simp [pasteStop]

/-- A wrapped text is read as one paste exactly when it has no end marker. -/
theorem received_wrapped (text : Text) :
    received (utf8Encode (pasteStart ++ text ++ pasteStop)) = [.frame (utf8Encode text)] ↔
      ¬ pasteStop <:+: text := by
  rw [utf8Encode_frame ascii_pasteStart text ascii_pasteStop, received]
  have hframe := Framing.receive_frame_iff (asciiBytes pasteStart) (a := 0x1b)
    (t := [0x5b, 0x32, 0x30, 0x31, 0x7e]) (by decide) (by decide) (utf8Encode text)
  exact hframe.trans (not_congr (infix_utf8Encode ascii_pasteStop text))

namespace Control

variable {A : Alacritty T R}

/-- Going to the live edge leaves the modes of the terminal. -/
theorem mode_toLiveEdge (hA : Lawful A) (c : Control T) :
    (c.toLiveEdge A).terminal.map A.mode = c.terminal.map A.mode := by
  rw [terminal_toLiveEdge, Option.map_map]
  refine congrArg (fun f => c.terminal.map f) (funext fun t => ?_)
  show A.mode (A.selectionClear _) = A.mode t
  rw [hA.selectionClear_mode]
  split
  · exact hA.scroll_mode .Bottom t
  · rfl

/-- `SendText` sends its text in one piece, wrapped as the modes ask for it. -/
theorem sent_sendText (hA : Lawful A) {c : Control T} (hsession : c.session.isNone = false)
    {text : Text} (htext : text ≠ []) :
    (c.sendText A text).sent = c.sent ++ [.text (utf8Encode (wrapped (c.modeFlags A) text))] := by
  have hmode : (c.toLiveEdge A).modeFlags A = c.modeFlags A :=
    modeFlags_congr (mode_toLiveEdge hA c)
  simp [sendText, rataSendText, hsession, htext, hmode]

/-- While bracketed paste is on, a text of several units reaches the program as one
paste of it all, and nothing of it as typed input, exactly when it has no end
marker. -/
theorem paste_framed_iff (hA : Lawful A) {c : Control T}
    (hmode : c.modeFlags A &&& RATA_MODE_BRACKETED_PASTE ≠ 0) {text : Text}
    (hlength : 1 < text.length) :
    ∃ bytes, (c.sendText A text).sent = c.sent ++ [.text bytes] ∧
      (received bytes = [.frame (utf8Encode text)] ↔ ¬ pasteStop <:+: text) := by
  have hsession : c.session.isNone = false := by
    cases hnone : c.session with
    | none => simp [modeFlags, hnone] at hmode
    | some s => rfl
  have htext : text ≠ [] := List.ne_nil_of_length_pos (by omega)
  refine ⟨_, sent_sendText hA hsession htext, ?_⟩
  rw [wrapped, if_pos ⟨hmode, hlength⟩]
  exact received_wrapped text

/-- A control whose shell has asked for bracketed paste. -/
def pasting : Control Plain :=
  ((create 8 16 652 384).start plain 100).output plain [ascii "\x1b[?2004h"]

/-- The text ends the paste itself; the rest is read as typed. -/
theorem paste_escapes :
    let text := [0x61] ++ pasteStop ++ [0x6c, 0x73, 0x0d]
    pasting.modeFlags plain &&& RATA_MODE_BRACKETED_PASTE ≠ 0 ∧ 1 < text.length ∧
      ∃ bytes, (pasting.sendText plain text).sent = [.text bytes] ∧
        received bytes = [.frame [0x61],
          .outside ([0x6c, 0x73, 0x0d] ++ asciiBytes pasteStop)] := by
  intro text
  refine ⟨by decide +kernel, by decide, utf8Encode (wrapped 0x08 text), ?_, ?_⟩
  · decide +kernel
  · decide +kernel

/-- Two letters arrive as a paste. -/
theorem paste_arrives :
    ∃ bytes, (pasting.sendText plain [0x6c, 0x73]).sent = [.text bytes] ∧
      received bytes = [.frame [0x6c, 0x73]] := by
  rcases paste_framed_iff plain_lawful (c := pasting) (by decide +kernel)
    (show 1 < ([0x6c, 0x73] : Text).length by decide) with ⟨bytes, hsent, hframed⟩
  exact ⟨bytes, hsent, hframed.2 (by decide)⟩

end Control

end RataShell.Input
