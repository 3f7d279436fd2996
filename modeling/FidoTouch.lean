import FidoTouch.Resident.Reregistration
import FidoTouch.Oath.Access
import FidoTouch.Ctap.Presence
import FidoTouch.Ctap.Verification
import FidoTouch.Ctap.Authorization
import FidoTouch.Ctap.RpScope
import FidoTouch.Ctap.Ceremonies
import FidoTouch.Ctap.Permissions
import FidoTouch.Ctap.PinFiles
import FidoTouch.Ctap.PowerLoss
import FidoTouch.Ctap.Retries
import FidoTouch.Ctap.MinPin
import FidoTouch.Resident.Nonces
import FidoTouch.Ctap.TokenLifetime
import FidoTouch.Resident.NoLeak
import FidoTouch.Resident.ContainerMap
import FidoTouch.Resident.CredentialUpdate
import FidoTouch.Storage.Course
import FidoTouch.Resident.FailedCreate
import FidoTouch.Ctap.MacLengths
import FidoTouch.Ctap.SoftLock
import FidoTouch.Ctap.SecureLock
import FidoTouch.Ctap.Owners
import FidoTouch.Oath.Session
import FidoTouch.Oath.Touch
import FidoTouch.Oath.PinFile
import FidoTouch.Oath.PinRetries
import FidoTouch.Ctap.Upload
import FidoTouch.Ctap.SignCounter
import FidoTouch.Ctap.U2f
import FidoTouch.Ctap.Discoverable
import FidoTouch.Ctap.NextAssertions
import FidoTouch.Ctap.IdRanges
import FidoTouch.Ctap.Buffers
import FidoTouch.Ctap.HmacBuffers
import FidoTouch.Ctap.KeyMigration
import FidoTouch.Ctap.UvPolicy
import FidoTouch.Ctap.MasterKey
import FidoTouch.Ctap.KeyBinding
import FidoTouch.Ctap.SessionEpoch
import FidoTouch.Otp.Slots
import FidoTouch.Otp.Applet
import FidoTouch.Otp.Contents
import FidoTouch.Otp.AccessCode
import FidoTouch.Otp.PlainSlots
import FidoTouch.Otp.Effects
import FidoTouch.Otp.Monotone
import FidoTouch.Ctap.CreateRanges
import FidoTouch.Ctap.IdContents
import FidoTouch.Ctap.Keyless
import FidoTouch.Ctap.RecordForms
import FidoTouch.Ctap.RpRecords
import FidoTouch.Ctap.UpdateUser
import FidoTouch.Program.Cursor
import FidoTouch.Ctap.Enumerations
import FidoTouch.Ctap.SavedHash
import FidoTouch.Ctap.StoreSearch
import FidoTouch.Ctap.Registration
import FidoTouch.Ctap.Capacity
import FidoTouch.Ctap.BlobIntegrity
import FidoTouch.CborMaps
import FidoTouch.Ctap.CredBlob
import FidoTouch.Ctap.AgreementPoints
import FidoTouch.Program.Errors
import FidoTouch.Ctap.Algorithms
import FidoTouch.Ctap.BlobRefusals
import FidoTouch.Resident.Genuine
import FidoTouch.Resident.AbsentObjects
import FidoTouch.Ctap.CachedKeys
import FidoTouch.Ctap.KeyBackup
import FidoTouch.Program.Members
import FidoTouch.Ctap.Requests
import FidoTouch.Ctap.UnknownMembers
import FidoTouch.Ctap.MinPinSettings
import FidoTouch.Ctap.NewPins
import FidoTouch.Ctap.U2fBuffer
import FidoTouch.Tlv
import FidoTouch.Oath.Records
import FidoTouch.Oath.Effects
import FidoTouch.Oath.Lookups
import FidoTouch.Oath.Rename
import FidoTouch.Oath.Hotp
import FidoTouch.Oath.Replay
import FidoTouch.Oath.Names
import FidoTouch.Oath.Migration
import FidoTouch.Oath.Secrets
import FidoTouch.Oath.Listing
import FidoTouch.Oath.CalculateAll
import FidoTouch.Crc
import FidoTouch.Management.Applet
import FidoTouch.Management.RoundTrip
import FidoTouch.Oath.ResponseBuffer
import FidoTouch.Otp.Reports
import FidoTouch.Otp.Swaps
import FidoTouch.Otp.TypedCodes
import FidoTouch.Program.Twins
import FidoTouch.Ctap.ResetForgets
import FidoTouch.Ctap.ArrayExchange
import FidoTouch.Storage.Agree
import FidoTouch.Oath.Twins
import FidoTouch.Otp.Frame
import FidoTouch.Firmware
import FidoTouch.Program.Parts
import FidoTouch.Firmware.Isolation
import FidoTouch.CborValues
import FidoTouch.CborEncoder
import FidoTouch.Ctap.GetInfo
import FidoTouch.Ctap.InfoAnswer
import FidoTouch.Ctap.InfoKept
import FidoTouch.Program.Gate
import FidoTouch.Otp.Validation
import FidoTouch.Ctap.Platform
import FidoTouch.Ctap.PinSession
import FidoTouch.Ctap.TokenUse
import FidoTouch.Ctap.HmacSession
