import MediaFoundation.Meta.Meta

/-!
# MetaData

Casts of a type-erased value (`any.h`), and the accessors of `Meta` that turn
integers into the enumerations and booleans that a tag is registered with
(`meta.cpp`).

Conventions:

* A default decides the type that a tag is registered with; the value of a
  default that is an enumeration is left at zero.
* A setter of an integer takes it to the enumeration of the tag as the cast of
  the source does: by its low bits.
-/

namespace MediaFoundation

-- AnyCast

/-- The types that a value is cast to, other than the enumerations. -/
inductive CastType where
  | bool | int32 | uint32 | int64 | float | double | string | vectorUint8 | vectorInt32

def CastType.Value : CastType → Type
  | bool => Bool
  | int32 => Int32
  | uint32 => UInt32
  | int64 => Int64
  | float => UInt32
  | double => UInt64
  | string => String
  | vectorUint8 => List UInt8
  | vectorInt32 => List Int32

namespace Any

/-- `AnyCast` of a pointer; `none` is the null pointer. -/
def anyCast : (type : CastType) → Any → Option type.Value
  | .bool, .bool v => some v
  | .int32, .int32 v => some v
  | .uint32, .uint32 v => some v
  | .int64, .int64 v => some v
  | .float, .float v => some v
  | .double, .double v => some v
  | .string, .string v => some v
  | .vectorUint8, .vectorUint8 v => some v
  | .vectorInt32, .vectorInt32 v => some v
  | _, _ => none

def anyCastEnum (type : EnumType) : Any → Option (BitVec type.underlying.bits)
  | .enumeration t v => if h : t = type then some (h ▸ v) else none
  | _ => none

def isSameTypeWith (type : CastType) (v : Any) : Bool := (v.anyCast type).isSome

end Any

-- The registered tags

/-- The rows of `g_metadataDefaultValueMap` without an enumeration, by default. -/
def metadataDefaultValueMap : List (Any × List String) :=
  [(.other ⟨"signed char", 1⟩ [0],
      ["hdrType", "av_player_video_bitdepth", "av_player_hdr_type"]),
    (.other ⟨"unsigned char", 1⟩ [0], ["avType", "dataType", "stopReason"]),
    (.int32 0, [
      "regular.app.uid", "regular.app.pid", "regular.app.token.id", "max_input_buffer_count",
      "max_input_size", "max_output_buffer_count", "regular.required.out.buffer.size",
      "regular.buffering.size", "regular.waterline.high", "regular.waterline.low", "channel_count",
      "sample_rate", "audio_samples_per_frame", "audio.output.channels", "audio.mpeg.version",
      "audio.mpeg.layer", "audio.aac.level", "audio.object.number",
      "audio.soundbed.channels.number", "audio.hoa.order", "audio.max.input.size",
      "audio.max.output.size", "width", "height", "video_delay", "video.max.surface_num",
      "video.h264.level", "track_count", "aac_is_adts", "audio_compression_level",
      "bits_per_coded_sample", "bits_per_raw_sample", "track_index", "scale_type",
      "i_frame_interval", "codec_profile", "quality", "sbr", "compliance_level", "codec_level",
      "stride", "video_encoder_number_of_pending_frames", "display_width", "display_height",
      "video_picture_width", "video_picture_height", "video_encoder_temporal_gop_size",
      "video_encoder_ltr_frame_count", "video_per_frame_poc", "video_encoder_per_frame_use_ltr",
      "video_crop_top", "video_crop_bottom", "video_crop_left", "video_crop_right",
      "video_slice_height", "video_encoder_qp_max", "video_encoder_qp_min",
      "video_encoder_qp_start", "video_encoder_target_qp",
      "feature_property_video_encoder_max_ltr_frame_count", "audio_object_number_key",
      "av_codec_caller_pid", "av_codec_caller_uid", "av_codec_forward_caller_pid",
      "av_codec_forward_caller_uid", "video_decoder_rate_upper_limit", "errCode",
      "captureDuration", "startLatency", "ERROR_CODE", "recordDuration", "videoBitrate",
      "audioSampleRate", "audioChannelCount", "audioBitrate", "timed_metadata_track_id",
      "video_encoder_frame_I_ratio", "video_encoder_frame_madi", "video_encoder_frame_madp",
      "video_encoder_sum_madi", "video_encoder_real_bit_rate", "video_encoder_frame_qp",
      "video_encoder_qp_average", "video_encoder_frame_temporal_id", "av_player_errCode",
      "av_player_play_duration", "av_player_source_type", "av_player_avg_download_rate",
      "av_player_video_bitrate", "av_player_audio_bitrate", "av_player_start_latency",
      "av_player_avg_download_speed", "av_player_max_seek_latency",
      "av_player_max_accurate_seek_latency", "av_player_lag_times", "av_player_max_lag_duration",
      "av_player_avg_lag_duration", "av_player_max_surfaceswap_latency", "video_coordinate_x",
      "video_coordinate_y", "video_coordinate_w", "video_coordinate_h",
      "video_encoder_repeat_previous_frame_after", "video_encoder_repeat_previous_max_count",
      "video_encoder_max_frame_delay_count", "video_decoder_output_colorspace",
      "video_decoder_output_enable_vrr", "av_transcoder_errCode", "av_transcoder_source_duration",
      "av_transcoder_transcoder_duration", "av_transcoder_src_video_bitrate",
      "av_transcoder_src_hdr_type", "av_transcoder_src_audio_sample_rate",
      "av_transcoder_src_audio_channel_count", "av_transcoder_src_audio_bitrate",
      "av_transcoder_dst_video_bitrate", "av_transcoder_dst_hdr_type",
      "av_transcoder_dst_color_space", "av_transcoder_dst_audio_sample_rate",
      "av_transcoder_dst_audio_channel_count", "av_transcoder_dst_audio_bitrate",
      "av_transcoder_video_decoder_duration", "av_transcoder_video_encoder_duration",
      "av_transcoder_video_vpe_duration", "use_editlist", "fast_start", "gltf_version",
      "video_decoder_input_stream_error", "enable_buffer_skip_samples", "audio_dsd_codec_type",
      "audio_block_align", "audio_vivid_signal_format"]),
    (.string "", [
      "codec_mime", "original_codec_name", "media.file.uri", "title", "artist", "media.lyricist",
      "album", "album_artist", "date", "comment", "genre", "copyright", "language", "description",
      "user.time.sync.result", "user.av.sync.group.info", "user.shared.memory.fd", "author",
      "composer", "lyrics", "codec_name", "process_name", "creation_time",
      "av_codec_caller_process_name", "av_codec_forward_caller_process_name", "errMsg",
      "videoResolution", "APP_NAME", "INSTANCE_ID", "ERROR_MESG", "timed_metadata_src_track_mime",
      "timed_metadata_key", "locale_timed_metadata", "setup_of_timed_metadata", "containerMime",
      "videoMime", "audioMime", "av_player_errMsg", "av_player_container_mime",
      "av_player_video_mime", "av_player_video_resolution", "av_player_audio_mime",
      "av_transcoder_errMsg", "av_transcoder_src_format", "av_transcoder_src_audio_mime",
      "av_transcoder_src_video_mime", "av_transcoder_dst_format", "av_transcoder_dst_audio_mime",
      "av_transcoder_dst_video_mime", "video_encoder_roi_params", "track_reference_type",
      "track_description", "track_ref_type", "ref_track_ids", "gltf_item_name",
      "gltf_content_type", "gltf_content_encoding", "gltf_item_type",
      "video_set_dmabuf_name_suffix", "aigc"]),
    (.float 0, ["latitude", "longitude", "altitude", "av_player_video_framerate"]),
    (.double 0, [
      "video_operating_rate", "capture_rate", "frame_rate", "video_sar", "video_encoder_mse",
      "av_transcoder_src_video_frame_rate", "av_transcoder_dst_video_frame_rate"]),
    (.bool false, [
      "av_transcoder_enable_b_frame_encoding", "range_flag", "req_i_frame", "video_is_hdr_vivid",
      "has_video", "has_audio", "has_subtitle", "has_timed_meta", "has_auxiliary", "endOfStream",
      "is_hardware", "frame_rate_adaptive_mode", "video_encoder_enable_temporal_scalability",
      "enable_sync_mode", "video_encoder_per_frame_mark_ltr", "video_per_frame_is_ltr",
      "video_per_frame_is_skip", "video_enable_low_latency",
      "video_encoder_enable_surface_input_callback", "video_encoder_enable_params_feedback",
      "video_buffer_can_drop", "regular.audio.render.set.flag", "userAgree", "requireMic",
      "enableMic", "av_player_is_drm_protected", "av_player_download_time_out",
      "video_encoder_per_frame_discard", "video_encoder_enable_watermark",
      "video_encoder_enable_qp_map", "video_encoder_frame_abs_block_qp",
      "video_encoder_enable_pts_based_ratecontrol", "video_decoder_blank_frame_on_shutdown",
      "video_decoder_output_in_decoding_order", "video_encoder_repeat_header_before_sync_frames",
      "video_enable_local_release", "is_gltf", "audio_encoder_enable_sample_format_convert"]),
    (.uint64 0, ["media.file.size", "media.position", "av_player_total_download_bits"]),
    (.int64 0, [
      "regular.app.full.token.id", "duration", "bitrate", "track_start_time", "user.frame.pts",
      "user.push.data.time", "timeStamp", "start_time", "decoding_timestamp", "buffer_duration",
      "video_decoder_desired_present_timestamp", "video_encode_set_frame_pts", "gltf_offset",
      "audio_soundbed_bitrate", "audio_object_bitrate"]),
    (.vectorUint8 [], [
      "codec_config", "audio.vivid.metadata", "cover", "identification_header", "setup_header",
      "audio_vivid_metadata_key", "buffer_skip_samples_info", "drm_cenc_info",
      "available_bitRates", "video_encoder_frame_block_qp", "gltf_data",
      "video_static_metadata_smpt2086", "video_static_metadata_cta861"]),
    (.other ⟨"std::vector<VideoBitStreamFormat>", 24⟩ [], ["video.bit.stream.format"]),
    (.uint32 0, [
      "DECRYPT_AVG_SIZE", "DECRYPT_AVG_DURATION", "DECRYPT_MAX_SIZE", "DECRYPT_MAX_DURATION",
      "DECRYPT_TIMES", "av_player_buffer_duration"]),
    (.vectorInt32 [], ["reference_track_ids"]),
    (.vectorInt64 [], ["regular.stalling.timestamp"])]

def getDefaultAnyValueOpt (tag : String) : Option Any :=
  match enumDefaults.lookup tag with
  | some t => some (.enumeration t 0)
  | none => (metadataDefaultValueMap.find? fun d => tag ∈ d.2).map Prod.fst

def metadataBoolVector : List String :=
  ["range_flag", "req_i_frame", "video_is_hdr_vivid", "has_video", "has_audio", "has_subtitle",
    "has_timed_meta", "has_auxiliary", "endOfStream", "is_hardware", "frame_rate_adaptive_mode",
    "video_encoder_enable_temporal_scalability", "enable_sync_mode",
    "video_encoder_per_frame_mark_ltr", "video_per_frame_is_ltr", "video_per_frame_is_skip",
    "video_enable_low_latency", "video_encoder_enable_surface_input_callback",
    "video_buffer_can_drop", "regular.audio.render.set.flag", "userAgree", "requireMic",
    "enableMic", "av_player_is_drm_protected", "av_player_download_time_out",
    "video_encoder_per_frame_discard", "video_encoder_enable_watermark",
    "video_encoder_enable_params_feedback", "video_encoder_enable_qp_map",
    "video_encoder_enable_pts_based_ratecontrol", "video_decoder_blank_frame_on_shutdown",
    "video_decoder_output_in_decoding_order", "video_encoder_repeat_header_before_sync_frames",
    "video_enable_local_release", "is_gltf", "audio_encoder_enable_sample_format_convert"]

/-- `g_metadataGetterSetterMap`: the enumeration of the two functions of a tag. -/
def metadataGetterSetterMap : List (String × EnumType) :=
  [("regular.src.input.type", ⟨"SrcInputType", .uint32⟩),
    ("audio_sample_format", ⟨"AudioSampleFormat", .int32⟩),
    ("audio.raw.sample.format", ⟨"AudioSampleFormat", .int32⟩),
    ("pixel_format", ⟨"VideoPixelFormat", .int32⟩),
    ("track_type", ⟨"MediaType", .int32⟩),
    ("video.h264.profile", ⟨"VideoH264Profile", .int32⟩),
    ("rotation_angle", ⟨"VideoRotation", .int32⟩),
    ("video_orientation_type", ⟨"VideoOrientationType", .int32⟩),
    ("color_primaries", ⟨"ColorPrimary", .int32⟩),
    ("video_hdr_type", ⟨"HDRType", .int32⟩),
    ("transfer_characteristics", ⟨"TransferCharacteristic", .int32⟩),
    ("matrix_coefficients", ⟨"MatrixCoefficient", .int32⟩),
    ("video.h265.profile", ⟨"HEVCProfile", .int32⟩),
    ("video.h265.level", ⟨"HEVCLevel", .int32⟩),
    ("chroma_location", ⟨"ChromaLocation", .int32⟩),
    ("file_type", ⟨"FileType", .int32⟩),
    ("demuxer_mode", ⟨"DemuxerMode", .int32⟩),
    ("video_encode_bitrate_mode", ⟨"VideoEncodeBitrateMode", .int32⟩),
    ("video_encode_b_frame_gop_mode", ⟨"VideoEncodeBFrameGopMode", .int32⟩),
    ("video_encoder_temporal_gop_reference_mode", ⟨"TemporalGopReferenceMode", .int32⟩),
    ("video_graphic_pixel_format", ⟨"GraphicPixelFormat", .int32⟩),
    ("video_codec_scenario", ⟨"VideoCodecScenario", .int32⟩)]

/-- The enumeration of the functions of `g_metadataGetterSetterInt64Map`. -/
def audioChannelLayout : EnumType := ⟨"AudioChannelLayout", .int64⟩

def isIntEnum (tag : String) : Bool := (metadataGetterSetterMap.lookup tag).isSome

def isLongEnum (tag : String) : Bool := tag ∈ getterSetterInt64Tags

-- The accessors

namespace Meta

def find (m : Meta) (tag : String) : Option Any := m.map[tag]?

def setData (m : Meta) (tag : String) (value : Any) : Meta := ⟨m.map.insert tag value⟩

def remove (m : Meta) (tag : String) : Meta := ⟨m.map.erase tag⟩

def setMetaDataInt32 (m : Meta) (tag : String) (value : Int32) : Bool × Meta :=
  match metadataGetterSetterMap.lookup tag with
  | none =>
    if tag ∈ metadataBoolVector then (true, m.setData tag (.bool (value ≠ 0)))
    else (true, m.setData tag (.int32 value))
  | some t => (true, m.setData tag (.enumeration t (value.toBitVec.signExtend _)))

def setMetaDataUint32 (m : Meta) (tag : String) (value : UInt32) : Bool × Meta :=
  match metadataGetterSetterMap.lookup tag with
  | none =>
    if tag ∈ metadataBoolVector then (true, m.setData tag (.bool (value ≠ 0)))
    else (true, m.setData tag (.uint32 value))
  | some _ => (false, m)

def setMetaDataInt64 (m : Meta) (tag : String) (value : Int64) : Bool × Meta :=
  if tag ∈ getterSetterInt64Tags then
    (true, m.setData tag (.enumeration audioChannelLayout (value.toBitVec.signExtend _)))
  else (true, m.setData tag (.int64 value))

def getMetaDataInt64 (m : Meta) (tag : String) : Option Int64 :=
  if tag ∈ getterSetterInt64Tags then
    (m.find tag).bind fun v =>
      (v.anyCastEnum audioChannelLayout).map fun b => .ofBitVec (b.signExtend 64)
  else (m.find tag).bind fun v => v.anyCast .int64

end Meta

end MediaFoundation
