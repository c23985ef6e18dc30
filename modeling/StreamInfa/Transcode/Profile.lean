import StreamInfa.Core.Types

/-!
Codec attributes of a rendition (`src/transcode/profile.rs`).

The texts come from the configured ladder and are not checked by the source: an
unknown profile counts as `main`, an unreadable level number takes a default.
-/

namespace StreamInfa.Transcode

/-- Parse a `u8` as the standard library does: an optional plus sign, then decimal
digits, at most 255. -/
def parseU8 (t : Text) : Option UInt8 :=
  let digits := if t.head? = some '+' then t.tail else t
  if digits ≠ [] ∧ digits.all Char.isDigit = true then
    let n := Nat.ofDigitChars 10 digits 0
    if n ≤ 255 then some (UInt8.ofNat n) else none
  else none

/-- `4.1` is level_idc 41. The arithmetic is on bytes and wraps. -/
def parseLevel (level : Text) : UInt8 :=
  match level.splitOn '.' with
  | [major, minor] => (parseU8 major).getD 3 * 10 + (parseU8 minor).getD 0
  | [major] => (parseU8 major).getD 3 * 10
  | _ => 31

/-- `avc1.PPCCLL`, the HLS codec string of a rendition. -/
def codecString (profile level : Text) : Text :=
  let profileIdc : UInt8 :=
    if profile = "baseline".toList then 66
    else if profile = "main".toList then 77
    else if profile = "high".toList then 100
    else 77
  "avc1.".toList ++ hexPad 2 profileIdc.toNat ++ "00".toList ++ hexPad 2 (parseLevel level).toNat

/-- The full codecs attribute of the HLS manifest. -/
def codecsAttribute (profile level : Text) (hasAudio : Bool) : Text :=
  let video := codecString profile level
  if hasAudio then video ++ ",mp4a.40.2".toList else video

/-- BANDWIDTH of the HLS manifest: both bitrates and 10% overhead, in bits per
second. -/
def bandwidth (videoBitrateKbps audioBitrateKbps : UInt32) : UInt32 :=
  let totalKbps := videoBitrateKbps + audioBitrateKbps
  truncU32 (totalKbps.toNat * (11 / 10) * 1000)

example : codecsAttribute "high".toList "4.1".toList true = "avc1.640029,mp4a.40.2".toList := by
  decide +kernel

end StreamInfa.Transcode
