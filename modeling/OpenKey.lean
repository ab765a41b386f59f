import OpenKey.Storage.FlashProof
import OpenKey.Storage.FileProof
import OpenKey.Storage.EngineAtomic
import OpenKey.Transport.CtaphidRoundTrip
import OpenKey.Ctap2.SignCounter
import OpenKey.Ctap2.CredProtect
import OpenKey.Ctap2.Token
import OpenKey.Ctap2.ManagementAuth
import OpenKey.Ctap2.PinRetry
import OpenKey.Ctap2.PinPaths
import OpenKey.Ctap2.Noninterference
import OpenKey.Ctap2.Within
import OpenKey.Ctap2.Enumeration
import OpenKey.Ctap2.AlwaysUv
import OpenKey.Ctap2.HmacSession
import OpenKey.Ctap2.AllowList
import OpenKey.Storage.SharedFile
import OpenKey.Transport.CtaphidSound
import OpenKey.Device.HidLoop
import OpenKey.Transport.Iso7816Chaining
import OpenKey.Transport.Iso7816Routing
import OpenKey.Device.Management
import OpenKey.Device.OathGate
import OpenKey.Device.OathRemaining
import OpenKey.Transport.CcidQueue
import OpenKey.Transport.CcidReceive
import OpenKey.Device.CcidLoop
import OpenKey.Device.Routing
import OpenKey.Device.PowerCycle
import OpenKey.Device.Simulator
import OpenKey.Ctap2.Completeness
import OpenKey.Device.OathBlob
import OpenKey.Device.Rollbacks
import OpenKey.Device.PivPin
import OpenKey.Device.OpenPgpPasswords
import OpenKey.Device.ManagementFaults
import OpenKey.Ctap2.Creation
import OpenKey.Ctap2.Reset
import OpenKey.Transport.Iso7816Grammar
import OpenKey.Transport.Nfc
import OpenKey.Device.PersistedForms
import OpenKey.Ctap2.CodecRoundTrip
import OpenKey.Ctap2.FailClosed
import OpenKey.Storage.Reload
import OpenKey.Ctap2.LargeBlobs
import OpenKey.Ctap2.Listing
import OpenKey.Ctap2.Deletion
import OpenKey.Ctap2.ForcedPin
import OpenKey.Ctap2.MinPinLength
import OpenKey.Transport.Iso7816Selection
import OpenKey.Crypto.PinProtocolRoundTrip
import OpenKey.Ctap2.AuthMessage
import OpenKey.Ctap2.ClientPinForms
import OpenKey.Transport.BleRoundTrip
import OpenKey.Ctap2.Canonical
import OpenKey.Storage.QspiProof
import OpenKey.Storage.QspiBackend
import OpenKey.Device.Channels
import OpenKey.Ctap2.Attestation
import OpenKey.Ctap2.ListedKeys
import OpenKey.Ctap2.Presence
import OpenKey.Ctap2.PinRefinement
import OpenKey.Device.HostSession
import OpenKey.Device.EntropySource
import OpenKey.Device.Cells
import OpenKey.Device.OathBook
import OpenKey.Device.OpenPgpHolder
import OpenKey.Device.PivHolder
import OpenKey.Device.CardHolder
import OpenKey.Crypto.Hybrid
import OpenKey.Device.CardFaults
