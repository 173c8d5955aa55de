/-
The denoms on both sides of a channel: what a voucher is read as, and which
amounts survive the way out and back.
-/
import NeutronContracts.Cw20Ics20.Ibc

namespace NeutronContracts.Cw20Ics20

open Fallible

section

variable {remote : IbcEndpoint} {voucher port channel denom : String}
  {amount : Amount}

/-- A text of three pieces, of which only the last may contain a slash. -/
structure Pieces (text port channel denom : String) : Prop where
  joined : text = Text.join '/' [port, channel, denom]
  port_plain : '/' ∉ port.toList
  channel_plain : '/' ∉ channel.toList

theorem splitn_pieces :
    Text.splitn '/' 3 voucher = [port, channel, denom] ↔
      Pieces voucher port channel denom := by
  rw [Text.splitn_three_iff]
  exact ⟨fun ⟨h, hport, hchannel⟩ => ⟨h, hport, hchannel⟩,
    fun ⟨h, hport, hchannel⟩ => ⟨h, hport, hchannel⟩⟩

/-- A voucher is read as the denom behind the port and the channel of the
other end, and there are three reasons to refuse one: fewer than two slashes,
another port, or another channel of that port. -/
theorem voucher_is_read (voucher : String) (remote : IbcEndpoint) :
    (∃ denom, parseVoucherDenom voucher remote = .ok denom ∧
        Pieces voucher remote.portId remote.channelId denom) ∨
      (parseVoucherDenom voucher remote = .error .noForeignTokens ∧
        ∀ port channel denom, ¬ Pieces voucher port channel denom) ∨
      (∃ port channel denom, parseVoucherDenom voucher remote =
          .error (.fromOtherPort port) ∧
        Pieces voucher port channel denom ∧ port ≠ remote.portId) ∨
      ∃ channel denom, parseVoucherDenom voucher remote =
          .error (.fromOtherChannel channel) ∧
        Pieces voucher remote.portId channel denom ∧
        channel ≠ remote.channelId := by
  by_cases hpieces : ∃ port channel denom,
      Text.splitn '/' 3 voucher = [port, channel, denom]
  · obtain ⟨port, channel, denom, hsplit⟩ := hpieces
    have hpieces := splitn_pieces.mp hsplit
    by_cases hport : port = remote.portId
    · by_cases hchannel : channel = remote.channelId
      · refine .inl ⟨denom, ?_, hport ▸ hchannel ▸ hpieces⟩
        exact parseVoucherDenom_ok.mpr ⟨hport ▸ hchannel ▸ hpieces.joined,
          hport ▸ hpieces.port_plain, hchannel ▸ hpieces.channel_plain⟩
      · refine .inr (.inr (.inr ⟨channel, denom, ?_, hport ▸ hpieces,
          hchannel⟩))
        simp [parseVoucherDenom, hsplit, rejectIf, hport, hchannel, bind,
          Except.bind]
    · refine .inr (.inr (.inl ⟨port, channel, denom, ?_, hpieces, hport⟩))
      simp [parseVoucherDenom, hsplit, rejectIf, hport, bind, Except.bind]
  · refine .inr (.inl ⟨?_, fun port channel denom hjoined => hpieces
      ⟨port, channel, denom, splitn_pieces.mpr hjoined⟩⟩)
    unfold parseVoucherDenom
    split
    · next port channel denom hsplit =>
        exact absurd ⟨port, channel, denom, hsplit⟩ hpieces
    · rfl

/-- An amount that goes out and comes back as a voucher of the other end is
the same amount, except for a coin of the bank whose denom has the mark of the
tokens. -/
theorem voucher_round_trip (hport : '/' ∉ remote.portId.toList)
    (hchannel : '/' ∉ remote.channelId.toList) (amount : Amount) :
    (∃ denom, parseVoucherDenom (Text.join '/'
          [remote.portId, remote.channelId, amount.denom]) remote =
        .ok denom ∧ Amount.fromParts denom amount.amount = amount) ↔
      ∀ coin, amount = .native coin → isCw20 coin.denom = false := by
  have hread : parseVoucherDenom (Text.join '/'
      [remote.portId, remote.channelId, amount.denom]) remote =
        .ok amount.denom :=
    parseVoucherDenom_ok.mpr ⟨rfl, hport, hchannel⟩
  rw [hread]
  constructor
  · rintro ⟨denom, hdenom, hback⟩ coin rfl
    obtain rfl := Except.ok.inj hdenom
    by_contra hmark
    rw [Amount.denom, Amount.fromParts, if_pos (by simpa using hmark)] at hback
    cases hback
  · intro hplain
    refine ⟨amount.denom, rfl, ?_⟩
    cases amount with
    | native coin => exact fromParts_native (hplain coin rfl)
    | cw20 coin => exact fromParts_cw20 coin.address coin.amount

/-- Tokens come back as tokens. -/
theorem voucher_round_trip_sample :
    ∃ denom, parseVoucherDenom (Text.join '/'
        ["transfer", "channel-7", "cw20:lsd"]) ⟨"transfer", "channel-7"⟩ =
      .ok denom ∧ Amount.fromParts denom 30 = .cw20 ⟨"lsd", 30⟩ :=
  (@voucher_round_trip ⟨"transfer", "channel-7"⟩ (by decide) (by decide)
    (.cw20 ⟨"lsd", 30⟩)).mpr fun _ h => nomatch h

end

end NeutronContracts.Cw20Ics20
