import LayeredSchema.Edit
import LayeredSchema.Encoding.Definition
import LayeredSchema.Order.Dependency
import LayeredSchema.Settings.File
import LayeredSchema.Proofs.Order.Creation
import LayeredSchema.Proofs.Overlay.LastWriter
import LayeredSchema.Proofs.Validation.Closure
import LayeredSchema.Proofs.Overlay.Additions
import LayeredSchema.Proofs.Overlay.Distinct
import LayeredSchema.Proofs.Overlay.Regroup
import LayeredSchema.Proofs.Overlay.Align
import LayeredSchema.Proofs.Overlay.Settled
import LayeredSchema.Proofs.Overlay.Again
import LayeredSchema.Proofs.Reference.Chain
import LayeredSchema.Proofs.Reference.Inheritance
import LayeredSchema.Proofs.Reference.Terminal
import LayeredSchema.Proofs.Validation.Surplus
import LayeredSchema.Proofs.Validation.Count
import LayeredSchema.Proofs.Overlay.Frame
import LayeredSchema.Proofs.Assembly
import LayeredSchema.Proofs.Validation.Strays
import LayeredSchema.Proofs.Overlay.Additive
import LayeredSchema.Proofs.Overlay.Independent
import LayeredSchema.Proofs.Reference.Unambiguous
import LayeredSchema.Proofs.Validation.Addressing
import LayeredSchema.Proofs.Order.Walk
import LayeredSchema.Proofs.Reference.Rearrangement
import LayeredSchema.Proofs.Order.Rearrangement
import LayeredSchema.Proofs.Encoding.Loosening
import LayeredSchema.Proofs.Encoding.Faithful
import LayeredSchema.Proofs.Encoding.Definition
import LayeredSchema.Proofs.Session
import LayeredSchema.Proofs.Comparison
import LayeredSchema.Proofs.Overlay.Upsert
import LayeredSchema.Proofs.Overlay.Bodies
import LayeredSchema.Proofs.Overlay.Unkeyed
import LayeredSchema.Proofs.Overlay.Root
import LayeredSchema.Proofs.Overlay.Malformed
import LayeredSchema.Proofs.Validation.Routines
import LayeredSchema.Proofs.Validation.Collisions
import LayeredSchema.Proofs.Reference.Ancestry
import LayeredSchema.Proofs.Reference.Key
import LayeredSchema.Proofs.Order.Recording
import LayeredSchema.Proofs.Order.Distance
import LayeredSchema.Proofs.Order.Closure
import LayeredSchema.Proofs.Order.Depth
import LayeredSchema.Proofs.Order.SelfReference
import LayeredSchema.Proofs.Reference.Agreement
import LayeredSchema.Proofs.Overlay.Stability
import LayeredSchema.Proofs.Overlay.Bounds
import LayeredSchema.Proofs.Misuse
