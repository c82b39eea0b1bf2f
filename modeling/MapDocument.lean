import MapDocument.Bytes.Reader
import MapDocument.Bytes.Writer
import MapDocument.Catalog.Codes
import MapDocument.Catalog.Containers
import MapDocument.Json.Reading
import MapDocument.Disk.FileTree
import MapDocument.Main
import MapDocument.Proofs.Node.Leaf
import MapDocument.Proofs.Outcome
import MapDocument.Proofs.Scene.Separation
import MapDocument.Proofs.Text.Utf8
import MapDocument.Proofs.Node.Reload
import MapDocument.Proofs.FloatingPoint.Order
import MapDocument.Proofs.Scene.Reload
import MapDocument.Proofs.Faults
import MapDocument.Proofs.Journal
import MapDocument.Proofs.Node.Loaded
import MapDocument.Proofs.Geometry.Mesh
import MapDocument.Proofs.Geometry.Sources
import MapDocument.Proofs.Node.Manifest
import MapDocument.Proofs.Scene.Manifest
import MapDocument.Proofs.Geometry.Shapes
import MapDocument.Proofs.Scene.Derivation
import MapDocument.Proofs.Scene.Validated
import MapDocument.Proofs.Deflate.Stored
import MapDocument.Proofs.Zlib
import MapDocument.Proofs.Artifact
import MapDocument.Proofs.Compile.Document
import MapDocument.Proofs.Compile.File
import MapDocument.Proofs.Node.Atomic
import MapDocument.Proofs.Geometry.Box
import MapDocument.Proofs.Geometry.Stream
import MapDocument.Proofs.Scene.Shapes
import MapDocument.Proofs.Journal.Places
import MapDocument.Proofs.Scene.Report
import MapDocument.Proofs.Disk.FileTree
import MapDocument.Proofs.Disk.Lawful
import MapDocument.Proofs.Compile.Effects
import MapDocument.Proofs.Node.Load
import MapDocument.Proofs.Node.Schema
import MapDocument.Proofs.Node.Revision
import MapDocument.Proofs.Node.Culprit
import MapDocument.Proofs.Scene.Forgetful
import MapDocument.Proofs.Scene.Schema
import MapDocument.Proofs.Disk.Ancestors
import MapDocument.Proofs.Disk.Trail
import MapDocument.Proofs.Disk.Laying
import MapDocument.Proofs.Disk.Abreast
import MapDocument.Proofs.Compile.Abreast
import MapDocument.Proofs.CommandLine
import MapDocument.Proofs.Text.Utf8.Decoding
import MapDocument.Proofs.Bytes.Reader
import MapDocument.Proofs.Bytes.Sequence
import MapDocument.Proofs.Deflate.Copies
import MapDocument.Proofs.Deflate.Local
import MapDocument.Proofs.Deflate.Packed
import MapDocument.Proofs.Compile.Overwriting
import MapDocument.Proofs.CommandLine.Artifacts
import MapDocument.Proofs.TypeCode.Runs
import MapDocument.Proofs.Geometry.Agreement
import MapDocument.Proofs.Geometry.Tiling
import MapDocument.Proofs.Geometry.TightBox
import MapDocument.Proofs.Geometry.Box.Runs
import MapDocument.Proofs.Journal.Queries
import MapDocument.Node.Erased
import MapDocument.Proofs.Journal.Pruned
import MapDocument.Proofs.Node.Lasting
import MapDocument.Proofs.Bytes.Base64.Canonical
import MapDocument.Proofs.Node.Buffer
import MapDocument.Proofs.Geometry.Heights
import MapDocument.Proofs.FloatingPoint.NonNegative
import MapDocument.Proofs.Geometry.Union
import MapDocument.Proofs.Node.Homogeneous
import MapDocument.Proofs.FloatingPoint.Monotone
import MapDocument.Proofs.Geometry.Covering
