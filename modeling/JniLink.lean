import JniLink.Main
import JniLink.Proofs.Binding.Interleaving
import JniLink.Proofs.Descriptor
import JniLink.Proofs.Host.Comment
import JniLink.Proofs.Library.Resolution
import JniLink.Proofs.Registry.Views
import JniLink.Proofs.Session.FirstRequest
import JniLink.Proofs.Symbol.Uniqueness
import JniLink.Proofs.Text.Match
import JniLink.Proofs.Text.Word
import JniLink.Proofs.Host.Block
import JniLink.Proofs.Host.Methods
import JniLink.Proofs.Host.ReadBack
import JniLink.Proofs.Host.Header
import JniLink.Proofs.Host.Splice
import JniLink.Proofs.Host.Scan
import JniLink.Proofs.Manifest
import JniLink.Proofs.Stub
import JniLink.Proofs.Command.Stub
import JniLink.Proofs.Android.Merge
import JniLink.Proofs.Host.Resplice
import JniLink.Proofs.Host.Place
import JniLink.Proofs.Android.Unclosed
import JniLink.Proofs.Host.Validity
import JniLink.Proofs.Config.Validity
import JniLink.Proofs.Command.Linking
import JniLink.Proofs.Symbol.Canonical
import JniLink.Proofs.Config.Search
import JniLink.Proofs.Config.Document
import JniLink.Proofs.Command.Effects
import JniLink.Proofs.JvmType.RoundTrip
import JniLink.Proofs.Host.Stripped
import JniLink.Proofs.Session.SearchOrder
import JniLink.Proofs.Android.Toolchain
import JniLink.Proofs.Text.Span
import JniLink.Proofs.Host.Vararg
import JniLink.Proofs.Host.Nested
import JniLink.Proofs.Android.Appended
import JniLink.Proofs.Stub.Imports
import JniLink.Proofs.Bounds
