import EfiLoader.Attempt
import EfiLoader.Boot.Cause
import EfiLoader.Boot.Launch
import EfiLoader.Boot.Leave
import EfiLoader.Bytes
import EfiLoader.Ini.Reader
import EfiLoader.Kernel.Elf
import EfiLoader.Kernel.Executable
import EfiLoader.Kernel.Load
import EfiLoader.Kernel.Rejection
import EfiLoader.Kernel.Segment
import EfiLoader.Log.Device
import EfiLoader.Log.Layout
import EfiLoader.Log.Level
import EfiLoader.Log.Record
import EfiLoader.MemoryMap.Descriptor
import EfiLoader.MemoryMap.Listing
import EfiLoader.MemoryMap.Snapshot
import EfiLoader.Numeral
import EfiLoader.Outcome
import EfiLoader.Program
import EfiLoader.Screen.FrameBuffer
import EfiLoader.Screen.Mode
import EfiLoader.Serial.Register
import EfiLoader.Serial.Uart
import EfiLoader.Services.Request
import EfiLoader.Settings
import EfiLoader.Status
import EfiLoader.Testbed.Area
import EfiLoader.Testbed.FileTable
import EfiLoader.Testbed.LogSession
import EfiLoader.Testbed.MemoryFirmware
import EfiLoader.Testbed.MemorySession
import EfiLoader.Testbed.Pool
import EfiLoader.Testbed.Script
import EfiLoader.Testbed.ScriptedFirmware
import EfiLoader.Testbed.Session
import EfiLoader.Testbed.Uart
import EfiLoader.Testbed.UartSession
import EfiLoader.Testbed.UefiMachine
import EfiLoader.Testbed.Volume
import EfiLoader.Uefi.BootServices
import EfiLoader.Uefi.Console
import EfiLoader.Uefi.Loader
import EfiLoader.Uefi.Logger
import EfiLoader.Uefi.Request
import EfiLoader.Proofs.Bytes
import EfiLoader.Proofs.Numeral
import EfiLoader.Proofs.Attempts
import EfiLoader.Proofs.Kernel.Bounds
import EfiLoader.Proofs.Kernel.Loading
import EfiLoader.Proofs.Memory
import EfiLoader.Proofs.Kernel.Safety
import EfiLoader.Proofs.Kernel.Placement
import EfiLoader.Proofs.MemoryMap.Acceptance
import EfiLoader.Proofs.MemoryMap.Lifetime
import EfiLoader.Proofs.Boot.Preparation
import EfiLoader.Proofs.Boot.Exit
import EfiLoader.Proofs.Boot.Handshake
import EfiLoader.Proofs.Kernel.Acceptance
import EfiLoader.Proofs.Kernel.Cover
import EfiLoader.Proofs.Kernel.Copying
import EfiLoader.Proofs.Kernel.Reordering
import EfiLoader.Proofs.MemoryMap.Recording
import EfiLoader.Proofs.MemoryMap.Decoding
import EfiLoader.Proofs.Boot.Stages
import EfiLoader.Proofs.Boot.Order
import EfiLoader.Proofs.Boot.Frame
import EfiLoader.Proofs.Uefi.Graphics
import EfiLoader.Proofs.Ini.Scanning
import EfiLoader.Proofs.Ini.Grammar
import EfiLoader.Proofs.Ini.Progress
import EfiLoader.Proofs.Ini.Cursor
import EfiLoader.Proofs.Ini.Joining
import EfiLoader.Proofs.Ini.Cutting
import EfiLoader.Proofs.Ini.Editing
import EfiLoader.Proofs.Ini.Lines
import EfiLoader.Proofs.Ini.LineEndings
import EfiLoader.Proofs.Ini.Lookahead
import EfiLoader.Proofs.Ini.Viability
import EfiLoader.Proofs.Ini.Places
import EfiLoader.Proofs.Settings
import EfiLoader.Proofs.Settings.Meaning
import EfiLoader.Proofs.Boot.Resources
import EfiLoader.Proofs.Execution
import EfiLoader.Proofs.Agreement
import EfiLoader.Proofs.MemoryMap.Layout
import EfiLoader.Proofs.Testbed.Files
import EfiLoader.Proofs.Testbed.Answers
import EfiLoader.Proofs.Testbed.Recording
import EfiLoader.Proofs.Testbed.Charting
import EfiLoader.Proofs.Testbed.Loading
import EfiLoader.Proofs.Testbed.Launch
import EfiLoader.Proofs.Testbed.Keys
import EfiLoader.Proofs.Testbed.Twins
import EfiLoader.Proofs.Testbed.Diagnostics
import EfiLoader.Proofs.Testbed.RoundTrip
import EfiLoader.Proofs.Serial.Bus
import EfiLoader.Proofs.Serial.Output
import EfiLoader.Proofs.Serial.SetUp
import EfiLoader.Proofs.Testbed.BootVolume
import EfiLoader.Proofs.Uefi.Answering
import EfiLoader.Proofs.Uefi.Departure
import EfiLoader.Proofs.Uefi.Histories
import EfiLoader.Proofs.Uefi.Keeping
import EfiLoader.Proofs.Uefi.Recording
import EfiLoader.Proofs.Uefi.SerialLog
import EfiLoader.Proofs.Uefi.LogSetUp
import EfiLoader.Proofs.Uefi.SettingsFile
import EfiLoader.Proofs.Boot.Messages
import EfiLoader.Proofs.Testbed.Window
import EfiLoader.Proofs.Testbed.Effects
import EfiLoader.Proofs.Testbed.Grants
import EfiLoader.Proofs.Testbed.Reading
