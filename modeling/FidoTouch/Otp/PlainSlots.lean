import FidoTouch.Ctap.PlainDevice
import FidoTouch.Ctap.RoundTrip
import FidoTouch.Otp.Contents

/-! The OTP application on the plain SDK, right after power came back on some files. -/
namespace FidoTouch.Otp
open FidoTouch.Program Handler FidoTouch.Storage FidoTouch.Ctap

@[reducible] def plainOtpSdk : OtpSdk where
  aes128Encrypt key block := PlainSdk.fill 16 (key ++ block)
  picoSerialStr10 := PlainSdk.fill 10 [7]
  manGetConfig _ := []

def plainOtp (files : List (Nat × Bytes)) : OtpState where
  fido := plainDevice files
  scanned := false
  sessionCounter _ := 0
  configSeq := 1
  statusByte := 0
  otpFrameRx := List.replicate 70 0
  sendBuffer := []
  otpCurrSeq := 0
  otpExpSeq := 0

/-- A configuration of a public id and an access code, whose flags make it one for Yubico OTPs. -/
def plainConfig (publicId code : Bytes) : Bytes :=
  (PlainSdk.fill 16 publicId).1 ++ List.replicate 22 3 ++ (code ++ List.replicate 6 0).take 6 ++ List.replicate 8 0

attribute [local instance] plainSdk plainLibrary plainOtpSdk

theorem plainOtp_ciphers : OtpCiphers where
  decrypt := by
    intro key nonce data blob hblob
    obtain ⟨blob', hencrypted, hlength, hdecrypted⟩ := @KeydevCiphers.encrypt cborSdk cborSdk_ciphers key nonce data
    have hsame : blob' = blob := Except.ok.inj (hencrypted.symm.trans hblob)
    exact ⟨by rw [← hsame, hlength]; omega, hsame ▸ hdecrypted⟩

end FidoTouch.Otp
