import KeyTree.Datum
import KeyTree.Main
import KeyTree.Report.Basic
import KeyTree.Engine.SecureBuffer
import KeyTree.Proofs.Update
import KeyTree.Proofs.Key.RecoveryFormula
import KeyTree.Proofs.Key.Signing
import KeyTree.Proofs.Key.TextReaders
import KeyTree.Proofs.Key.Tweaks
import KeyTree.Proofs.Key.Verification
import KeyTree.Proofs.Tree.CompactSigning
import KeyTree.Proofs.Tree.Derivation
import KeyTree.Proofs.Encoding.Ascii
import KeyTree.Proofs.Encoding.Base58
import KeyTree.Proofs.Key.Public
import KeyTree.Proofs.Text.Split
import KeyTree.Proofs.Tree.PathGrammar
import KeyTree.Proofs.Tree.Header
import KeyTree.Proofs.Tree.Layout
import KeyTree.Proofs.Tree.PublicNode
import KeyTree.Proofs.Key.Calls
import KeyTree.Proofs.Tree.Written
import KeyTree.Proofs.Tree.Validity
import KeyTree.Proofs.Tree.Identity
import KeyTree.Proofs.Tree.Failures
import KeyTree.Proofs.Tree.Loading
import KeyTree.Proofs.Encoding.DerUnique
import KeyTree.Proofs.Encoding.Hex
import KeyTree.Proofs.Key.DocumentForm
import KeyTree.Proofs.Key.EncodedSignature
import KeyTree.Proofs.Key.Export
import KeyTree.Proofs.Key.Import
import KeyTree.Proofs.Signature.LowForm
import KeyTree.Proofs.Tree.PublicKeys
import KeyTree.Proofs.Tree.FrameForms
import KeyTree.Proofs.Engine.Environment
import KeyTree.Proofs.Engine.Lifecycle
import KeyTree.Proofs.Tree.Roots
import KeyTree.Proofs.Tree.Descent
import KeyTree.Proofs.Tree.Messages
import KeyTree.Proofs.Tree.TextLabel
import KeyTree.Proofs.Report.Consistency
import KeyTree.Proofs.Report.Reproducible
import KeyTree.Proofs.Report.Exit
